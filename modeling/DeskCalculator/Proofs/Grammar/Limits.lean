/-
# How the limits fit together

The parser has two limits, and both are reported as the same fault: what is open at once may nest
100 deep, and a tree may be 400 deep.  The depth of a tree is limited by its nesting already
(`Derivation.depth_le_deepest`), so a tree cannot be too deep before the nesting has come to its
limit (`maxNesting_le_of_deep`).

The counting readers are put next to the ones of the parser, combinator by combinator (`Follows`):
they end in the same way, and what they have read has a derivation whose nesting the gauge has gone
up by.  The readers of a level follow where those of the next deeper level do or have no room
(`Deeper`); the induction on the levels ends where the gauge stands at the limit (`deeper_level`).
-/

import DeskCalculator.Proofs.Grammar.Counting
import DeskCalculator.Proofs.Grammar.Deepest
import DeskCalculator.Proofs.Grammar.Parsing

namespace DeskCalculator

open Grammar Reader

/-- Only the two limits have their code. -/
theorem Fault.code_eq_iff (f : Fault) : f.code = "3034" ↔ f = .tooDeep := by
  cases f <;> simp [code]

/-- A failure that is not that of the limits. -/
def Failure.Shallow (e : Failure) : Prop := ∀ {f equation}, e = .fault f equation → f ≠ .tooDeep

/-- Misuse is not a limit. -/
theorem Failure.shallow_misuse (m : Misuse) : (Failure.misuse m).Shallow := by
  intro f equation h
  cases h

/-- Raising another fault does not stop at a limit. -/
theorem Fault.shallow_of_raise {α : Type} {f : Fault} (h : f ≠ .tooDeep) {e : Failure}
    (raised : (f.raise : Except Failure α) = .error e) : e.Shallow := by
  intro f' equation he
  cases raised
  cases he
  exact h

/-- **A tree that is too deep uses the nesting up.** -/
theorem Grammar.maxNesting_le_of_deep {rule : Rule} {d : Derivation rule}
    (deep : maxDepth < d.tree.depth) : maxNesting ≤ d.nest := by
  have bound := Nat.le_trans (d.depth_le_deepest (Nat.le_refl _)) (rule.deepest_le _)
  simp only [maxDepth, maxNesting] at deep ⊢
  omega

namespace Counting

/-! ## Counting next to not counting -/

section Outcomes

variable {α β : Type} {c low : Nat} {P : α → Nat → Prop} {Q : β → Nat → Prop} {x : Counting α}
  {y : Except Failure α}

/-- How something ends with a gauge, next to how it ends without one.  Where it succeeds, as many
things are open as `c`, and its result fits the position of the gauge; the limits are told apart by
how far the gauge has gone up. -/
inductive Ends (c low : Nat) (P : α → Nat → Prop) :
    Except Stop α × Gauge → Except Failure α → Prop where
  | ok {a : α} {gauge : Gauge} (running : gauge.running = c) (higher : low ≤ gauge.most)
      (within : gauge.most ≤ maxNesting) (fits : P a gauge.most) :
      Ends c low P (.ok a, gauge) (.ok a)
  | nesting {gauge : Gauge} (beyond : gauge.most = maxNesting + 1) :
      Ends c low P (.error .nesting, gauge) Fault.tooDeep.raise
  | depth {gauge : Gauge} (used : gauge.most = maxNesting) :
      Ends c low P (.error .depth, gauge) Fault.tooDeep.raise
  | other {gauge : Gauge} {e : Failure} (shallow : e.Shallow) :
      Ends c low P (.error (.other e), gauge) (.error e)

/-- Reading with a gauge on which `c` things are open, and which has been up at `low` at least, ends
as reading without one does. -/
def Counts (c low : Nat) (P : α → Nat → Prop) (x : Counting α) (y : Except Failure α) : Prop :=
  ∀ gauge : Gauge, gauge.running = c → low ≤ gauge.most → gauge.most ≤ maxNesting →
    Ends c gauge.most P (x gauge) y

/-- A result without any reading is the same with a gauge. -/
theorem counts_pure {a : α} (h : ∀ m, c ≤ m → low ≤ m → P a m) :
    Counts c low P (pure a) (.ok a) :=
  fun gauge running above within =>
    .ok running (Nat.le_refl _) within (h _ (running ▸ gauge.running_le) above)

/-- What moves no gauge counts as it ends, if it stops at no limit. -/
theorem counts_uncounted (shallow : ∀ {e}, y = .error e → e.Shallow)
    (h : ∀ {a m}, y = .ok a → low ≤ m → P a m) : Counts c low P (uncounted y) y := by
  cases y with
  | error e => exact fun _ _ _ _ => .other (shallow rfl)
  | ok a => exact counts_pure fun _ _ above => h rfl above

/-- Raising another fault is the same with a gauge. -/
theorem counts_raise {f : Fault} (h : f ≠ .tooDeep) :
    Counts c low P (uncounted f.raise) f.raise :=
  counts_uncounted (Fault.shallow_of_raise h) fun raised => nomatch raised

/-- What is known of an end can be weakened: how far the gauge has been up, and what the result
fits. -/
theorem Ends.imp {Q : α → Nat → Prop} {low' : Nat} {r : Except Stop α × Gauge}
    (h : Ends c low P r y) (lower : low' ≤ low) (imp : ∀ {a m}, P a m → Q a m) :
    Ends c low' Q r y := by
  cases h with
  | ok running higher within fits =>
    exact .ok running (Nat.le_trans lower higher) within (imp fits)
  | nesting beyond => exact .nesting beyond
  | depth used => exact .depth used
  | other shallow => exact .other shallow

/-- What is known of the result can be weakened. -/
theorem Counts.imp {Q : α → Nat → Prop} (h : Counts c low P x y)
    (imp : ∀ {a m}, P a m → Q a m) : Counts c low Q x y :=
  fun gauge running above within => (h gauge running above within).imp (Nat.le_refl _) imp

/-- What stops has stopped, and what succeeds leaves its gauge to what comes after it. -/
theorem Ends.bind {c' low' : Nat} {gauge : Gauge} {f : α → Counting β} {g : α → Except Failure β}
    (first : Ends c low P (x gauge) y)
    (next : ∀ {a gauge'}, y = .ok a → gauge'.running = c → low ≤ gauge'.most →
      gauge'.most ≤ maxNesting → P a gauge'.most → Ends c' low' Q (f a gauge') (g a)) :
    Ends c' low' Q ((x >>= f) gauge) (y >>= g) := by
  generalize hr : x gauge = r at first
  cases first with
  | nesting beyond =>
    rw [Gauge.bind_of_error hr]
    exact .nesting beyond
  | depth used =>
    rw [Gauge.bind_of_error hr]
    exact .depth used
  | other shallow =>
    rw [Gauge.bind_of_error hr]
    exact .other shallow
  | ok running higher within fits =>
    rw [Gauge.bind_of_ok hr]
    exact next rfl running higher within fits

/-- What comes after something begins where the gauge stands then. -/
theorem Counts.bind {f : α → Counting β} {g : α → Except Failure β} (hx : Counts c low P x y)
    (hf : ∀ {a m}, y = .ok a → low ≤ m → P a m → Counts c m Q (f a) (g a)) :
    Counts c low Q (x >>= f) (y >>= g) := by
  intro gauge running above within
  refine (hx gauge running above within).bind fun {a gauge'} read running' higher within' fits => ?_
  have second := hf read (Nat.le_trans above higher) fits gauge' running' (Nat.le_refl _) within'
  exact second.imp higher id

/-- Entering raises the gauge, and stops if it stood at the limit. -/
theorem enter_eq (gauge : Gauge) : enter gauge =
    (if maxNesting < gauge.running + 1 then throw .nesting else pure () : Counting Unit)
      gauge.enter := rfl

/-- Something nested goes on with one thing more open, or there is no room for it. -/
theorem Counts.nested (full : c = maxNesting → y = Fault.tooDeep.raise)
    (inner : c < maxNesting → Counts (c + 1) (c + 1) P x y) : Counts c low P (nested x) y := by
  intro gauge running above within
  change Ends c gauge.most P ((enter >>= fun _ => x >>= fun a => leave >>= fun _ => pure a) gauge) y
  have least := gauge.running_le
  have most := gauge.enter_most
  rcases Nat.lt_or_ge c maxNesting with room | limit
  · have entered : enter gauge = (.ok (), gauge.enter) := by
      rw [enter_eq, if_neg (by omega)]
      rfl
    have begun : gauge.enter.running = c + 1 := by rw [Gauge.enter_running, running]
    have inside := inner room gauge.enter begun (by omega) (by omega)
    rw [Gauge.bind_of_ok entered, ← bind_pure y]
    refine inside.bind fun {a gauge'} _ running' higher within' fits => ?_
    have ended : gauge'.leave.running = c := by
      rw [Gauge.leave_running, running', Nat.add_sub_cancel]
    have higher : gauge.most ≤ gauge'.leave.most := by
      rw [Gauge.leave_most]
      omega
    exact .ok ended higher within' fits
  · have refused : enter gauge = (.error .nesting, gauge.enter) := by
      rw [enter_eq, if_pos (by omega)]
      rfl
    rw [Gauge.bind_of_error refused, full (by omega)]
    exact .nesting (by omega)

end Outcomes

/-! ## What is read -/

variable {c k low : Nat} {rule rule' : Rule} {operand : Reader} {plain : DeskCalculator.Reader}

/-- A tree off the front of well-formed tokens: it has a derivation, and above the `c` things that
are open around it the gauge has gone up by the nesting of that. -/
structure Found (c : Nat) (rule : Rule) (a : Graded × List Token) (most : Nat) : Prop where
  derived : ∃ d : Derivation rule, d.tree = a.1.tree ∧ c + d.nest ≤ most
  wellFormed : ∀ t ∈ a.2, t.WellFormed

/-- A reader that counts, with `c` things open in front of it, ends as one that does not; above the
things that are open where its rule begins, which are `k`, its trees nest no more than was counted.
-/
def Follows (c k : Nat) (rule : Rule) (operand : Reader) (plain : DeskCalculator.Reader) : Prop :=
  ∀ ⦃ts : List Token⦄ (low : Nat), (∀ t ∈ ts, t.WellFormed) →
    Counts c low (Found k rule) (operand ts) (plain.read ts)

/-- A tree is refused for its depth only where the gauge has come to the limit. -/
theorem counts_checked {g : Graded} (d : Derivation rule) (tree : d.tree = g.tree)
    (nest : c + d.nest ≤ low) :
    Counts c low (fun a _ => a = g) (checked g) (Reader.checked g) := by
  intro gauge running above within
  by_cases deep : maxDepth < g.depth
  · have used : maxNesting ≤ d.nest := maxNesting_le_of_deep (by rwa [tree, g.depth_eq])
    have counted : checked g = throw .depth := if_pos deep
    have uncounted : Reader.checked g = Fault.tooDeep.raise := if_pos deep
    rw [counted, uncounted]
    exact .depth (by omega)
  · have counted : checked g = pure g := if_neg deep
    have uncounted : Reader.checked g = .ok g := if_neg deep
    rw [counted, uncounted]
    exact counts_pure (fun _ _ _ => rfl) gauge running above within

/-- An operator in front of an operand is read alike with a gauge. -/
theorem Follows.behind (h : Follows c k rule operand plain) (operator : Token) :
    Follows c k rule (behind operator operand) (plain.behind operator) := by
  intro ts low wf
  cases ts with
  | nil => exact counts_raise (by simp)
  | cons t ts => exact h low wf

/-- A node is found where what it is put on has been found. -/
theorem Follows.wrap {node : Graded → Graded} (h : Follows c k rule operand plain)
    (derive : ∀ {g : Graded} {m : Nat} (d : Derivation rule), low ≤ m → d.tree = g.tree →
      k + d.nest ≤ m → ∃ d' : Derivation rule', d'.tree = (node g).tree ∧ c + d'.nest ≤ m)
    {ts : List Token} (wf : ∀ t ∈ ts, t.WellFormed) :
    Counts c low (Found c rule') (wrap node operand ts) ((plain.wrap node).read ts) := by
  refine (h low wf).bind fun _ above found => ?_
  obtain ⟨⟨d, tree, nest⟩, rest⟩ := found
  obtain ⟨d', tree', nest'⟩ := derive d above tree nest
  refine (counts_checked d' tree' nest').bind fun _ above' eq => ?_
  subst eq
  exact counts_pure fun _ _ above'' =>
    ⟨⟨d', tree', Nat.le_trans nest' (Nat.le_trans above' above'')⟩, rest⟩

/-! ## Chains -/

section Chains

variable {tier : Tier}

/-- Behind a tree that has been found, a chain goes on one operand after another. -/
theorem counts_links (h : Follows c c tier.operand operand plain) :
    ∀ (rounds : Nat) {low : Nat} {front : Graded} {d : Derivation (.chain tier)} {ts : List Token},
      d.tree = front.tree → c + d.nest ≤ low → ts.length ≤ rounds → (∀ t ∈ ts, t.WellFormed) →
      Counts c low (Found c (.chain tier)) (links (isOperator tier.symbols) operand rounds front ts)
        (Reader.links (isOperator tier.symbols) plain front ts)
  | rounds, low, front, d, [], tree, nest, _, wf => by
      rw [links, Reader.links]
      · exact counts_pure fun _ _ above => ⟨⟨d, tree, Nat.le_trans nest above⟩, wf⟩
      · simp
  | rounds + 1, low, front, d, t :: ts, tree, nest, within, wf => by
      obtain ⟨wft, wfts⟩ := wellFormed_cons wf
      rw [links]
      cases accepts : isOperator tier.symbols t with
      | false =>
        rw [links_cons_of_not _ _ _ _ _ accepts]
        exact counts_pure fun _ _ above => ⟨⟨d, tree, Nat.le_trans nest above⟩, wf⟩
      | true =>
        rw [links_cons _ _ _ _ _ accepts, if_pos rfl]
        have isSign := isSign_of_isOperator wft accepts
        refine (h.behind t low wfts).bind fun {a m} read above found => ?_
        obtain ⟨⟨right, tree', nest'⟩, wf'⟩ := found
        let longer := d.extend ⟨t, right, isSign⟩
        have treeLonger : longer.tree = .binary t.text front.tree a.1.tree := by
          rw [← tree, ← tree']
          exact d.tree_extend ⟨t, right, isSign⟩
        have nestLonger : c + longer.nest ≤ m := by
          have : longer.nest = max d.nest right.nest := d.nest_extend ⟨t, right, isSign⟩
          omega
        refine (counts_checked longer treeLonger nestLonger).bind fun _ above' eq => ?_
        subst eq
        have shorter := (plain.behind t).shorter read
        exact counts_links h rounds treeLonger (Nat.le_trans nestLonger above')
          (by rw [List.length_cons] at within; omega) wf'

/-- A chain is read alike with a gauge if its operands are. -/
theorem Follows.chain (h : Follows c c tier.operand operand plain) :
    Follows c c (.chain tier) (chain (isOperator tier.symbols) operand)
      (Reader.chain (isOperator tier.symbols) plain) := by
  intro ts low wf
  refine (h low wf).bind fun {a _} _ _ found => ?_
  obtain ⟨⟨d, tree, nest⟩, rest⟩ := found
  have alone : (Derivation.chain d .nil).tree = a.1.tree := tree
  have nestAlone : (Derivation.chain d .nil).nest = d.nest := Nat.max_zero _
  exact counts_links h _ alone (nestAlone.symm ▸ nest) (Nat.le_refl _) rest

end Chains

/-! ## What is nested -/

/-- The readers of a level follow those of the parser. -/
structure Level.Follows (c : Nat) (level : Level) (plain : Reader.Level) : Prop where
  sum : Counting.Follows c c (.chain .sum) level.sum plain.sum
  power : Counting.Follows c c .power level.power plain.power
  unary : Counting.Follows c c .unary level.unary plain.unary

/-- A deeper level: it has no room if the gauge stands at the limit, and follows otherwise. -/
structure Deeper (c : Nat) (level : Level) (plain : Reader.Level) : Prop where
  full : c = maxNesting → plain = Reader.level 0
  inner : c < maxNesting → level.Follows (c + 1) plain

variable {deeper : Level} {plainDeeper : Reader.Level}

/-- A nested unary operand is read alike, one thing more open around it. -/
theorem Deeper.unary (h : Deeper c deeper plainDeeper) :
    Follows c (c + 1) .unary (fun ts => nested (deeper.unary ts)) plainDeeper.unary :=
  fun _ _ wf => .nested (fun limit => by rw [h.full limit]; rfl)
    fun room => (h.inner room).unary _ wf

/-- A nested power is read alike, one thing more open around it. -/
theorem Deeper.power (h : Deeper c deeper plainDeeper) :
    Follows c (c + 1) .power (fun ts => nested (deeper.power ts)) plainDeeper.power :=
  fun _ _ wf => .nested (fun limit => by rw [h.full limit]; rfl)
    fun room => (h.inner room).power _ wf

/-- A parenthesis that is not closed is not a limit. -/
theorem shallow_of_close {unclosed : Fault} (h : unclosed ≠ .tooDeep) {ts : List Token}
    {e : Failure} (refused : close unclosed ts = .error e) : e.Shallow := by
  cases ts with
  | nil => exact Fault.shallow_of_raise h refused
  | cons t ts =>
    rw [close] at refused
    split at refused
    · cases refused
    · exact Fault.shallow_of_raise (by simp) refused

/-- A sum between parentheses is read alike, one thing more open around it. -/
theorem Deeper.parenthesized (h : Deeper c deeper plainDeeper) {unclosed : Fault}
    (limit : unclosed ≠ .tooDeep) :
    Follows c (c + 1) (.chain .sum) (parenthesized unclosed deeper.sum)
      (plainDeeper.sum.parenthesized unclosed) := by
  intro ts low wf
  refine .nested (fun limit => by rw [h.full limit]; rfl) fun room => ?_
  refine ((h.inner room).sum _ wf).bind fun _ _ found => ?_
  obtain ⟨⟨d, tree, nest⟩, rest⟩ := found
  refine (counts_uncounted (P := fun rest m => (∀ t ∈ rest, t.WellFormed)) (shallow_of_close limit)
    fun {behind _} closed _ => ?_).bind fun _ above rest => ?_
  · obtain ⟨t, -, eq⟩ := close_eq_ok.1 closed
    rw [eq] at rest
    exact (wellFormed_cons rest).2
  · exact counts_pure fun _ _ above' => ⟨⟨d, tree, by omega⟩, rest⟩

/-! ## The rules -/

/-- A name without a call is read alike, as it opens nothing. -/
theorem counts_uncalled {name : Token} (isName : name.kind = .identifier) {ts : List Token}
    (wf : ∀ t ∈ ts, t.WellFormed) :
    Counts c low (Found c .atom) (uncounted (named.uncalled name.text ts))
      (named.uncalled name.text ts) := by
  rw [named.uncalled]
  split
  · rename_i known
    exact counts_pure fun _ least _ => ⟨⟨.constant name isName known, rfl, least⟩, wf⟩
  · split
    · exact counts_raise (by simp)
    · exact counts_raise (by simp)

/-- A name is read alike, with its call or without. -/
theorem counts_named (h : Deeper c deeper plainDeeper) {name : Token}
    (isName : name.kind = .identifier) {ts : List Token} (wf : ∀ t ∈ ts, t.WellFormed) :
    Counts c low (Found c .atom) (named deeper name.text ts)
      (Reader.named plainDeeper name.text ts) := by
  cases ts with
  | nil => exact counts_uncalled isName wf
  | cons t ts =>
    rw [named, Reader.named]
    split
    · rename_i opens
      split
      · rename_i known
        refine Follows.wrap (h.parenthesized (by simp)) (fun d _ tree nest => ?_)
          (wellFormed_cons wf).2
        -- The tree has no trace of which parenthesis closes the call.
        refine ⟨.call name t d ⟨.closing, ")", 0⟩ isName known opens rfl, ?_, ?_⟩
        · rw [Derivation.tree, tree]
          rfl
        · rw [Derivation.nest]
          omega
      · split
        · exact counts_raise (by simp)
        · exact counts_raise (by simp)
    · exact counts_uncalled isName wf

/-- A factor is read alike if the deeper level is. -/
theorem follows_factor (h : Deeper c deeper plainDeeper) :
    Follows c c .atom (factor deeper) (Reader.factor plainDeeper) := by
  intro ts low wf
  cases ts with
  | nil => exact counts_raise (by simp)
  | cons t ts =>
    obtain ⟨-, rest⟩ := wellFormed_cons wf
    simp only [factor, Reader.factor]
    cases kind : t.kind with
    | number =>
      cases reads : Binary64.ofText? t.text with
      | none => exact fun _ _ _ _ => .other (Failure.shallow_misuse _)
      | some x => exact counts_pure fun _ least _ => ⟨⟨.number t x kind reads, rfl, least⟩, rest⟩
    | opening =>
      refine (h.parenthesized (by simp) low rest).imp fun found => ?_
      obtain ⟨⟨d, tree, nest⟩, rest⟩ := found
      refine ⟨⟨.group t d ⟨.closing, ")", 0⟩ kind rfl, tree, ?_⟩, rest⟩
      rw [Derivation.nest]
      omega
    | identifier => exact counts_named h kind rest
    | _ => exact counts_raise (by simp)

/-- A signed operand is read alike if the deeper level is. -/
theorem follows_unary (h : Deeper c deeper plainDeeper) :
    Follows c c .unary (unary deeper) (Reader.unary plainDeeper) := by
  have bare {ts : List Token} (low : Nat) (wf : ∀ t ∈ ts, t.WellFormed) :
      Counts c low (Found c .unary) (factor deeper ts) ((Reader.factor plainDeeper).read ts) := by
    refine (follows_factor h low wf).imp fun found => ?_
    obtain ⟨⟨d, tree, nest⟩, rest⟩ := found
    exact ⟨⟨.atom d, tree, nest⟩, rest⟩
  intro ts low wf
  cases ts with
  | nil => exact bare low wf
  | cons t ts =>
    obtain ⟨wft, rest⟩ := wellFormed_cons wf
    simp only [unary, Reader.unary]
    split
    · rename_i isMinus
      refine h.unary.wrap (fun d _ tree nest => ?_) rest
      refine ⟨.minus t d (isSign_of_isOperator wft isMinus), ?_, ?_⟩
      · rw [Derivation.tree, tree]
        rfl
      · rw [Derivation.nest]
        omega
    · exact bare low wf

/-- An exponent is read alike, behind a base that has been counted. -/
theorem counts_exponent (h : Deeper c deeper plainDeeper) {base : Graded} {d : Derivation .unary}
    (tree : d.tree = base.tree) (nest : c + d.nest ≤ low) {ts : List Token}
    (wf : ∀ t ∈ ts, t.WellFormed) :
    Counts c low (Found c .power) (exponent deeper base ts)
      (Reader.exponent plainDeeper base ts) := by
  have bare {ts : List Token} (wf : ∀ t ∈ ts, t.WellFormed) :
      Counts c low (Found c .power) (pure (base, ts)) (.ok (base, ts)) :=
    counts_pure fun _ _ above => ⟨⟨.unary d, tree, Nat.le_trans nest above⟩, wf⟩
  cases ts with
  | nil => exact bare wf
  | cons t ts =>
    obtain ⟨wft, rest⟩ := wellFormed_cons wf
    simp only [exponent, Reader.exponent]
    split
    · rename_i isCaret
      refine (h.power.behind t).wrap (fun e above tree' nest' => ?_) rest
      refine ⟨.raised d t e (isSign_of_isOperator wft isCaret), ?_, ?_⟩
      · rw [Derivation.tree, tree, tree']
        rfl
      · rw [Derivation.nest]
        omega
    · exact bare wf

/-- A power is read alike if the deeper level is. -/
theorem follows_power (h : Deeper c deeper plainDeeper) :
    Follows c c .power (power deeper) (Reader.power plainDeeper) := by
  intro ts low wf
  refine (follows_unary h low wf).bind fun _ _ found => ?_
  obtain ⟨⟨d, tree, nest⟩, rest⟩ := found
  exact counts_exponent h tree nest rest

/-- A level is read alike if the deeper one is. -/
theorem Deeper.follows {n : Nat} (h : Deeper c (level n) (Reader.level n)) :
    Level.Follows c (level (n + 1)) (Reader.level (n + 1)) :=
  have power := follows_power h
  have term : Follows c c (.chain .term) (term (level n)) (Reader.term (Reader.level n)) :=
    Follows.chain power
  ⟨Follows.chain term, power, follows_unary h⟩

/-- **At every level, the room that is left is what the parser has room for.** -/
theorem deeper_level : ∀ {n c : Nat}, c + n = maxNesting → Deeper c (level n) (Reader.level n)
  | 0, _, total => ⟨fun _ => rfl, fun room => absurd total (Nat.ne_of_lt room)⟩
  | _ + 1, _, total =>
    ⟨fun limit => by omega, fun _ => (deeper_level (by omega)).follows⟩

/-! ## The parser -/

/-- The parser ends as it does with a gauge. -/
theorem ends_parse {ts : List Token} (wf : ∀ t ∈ ts, t.WellFormed) :
    Ends 0 0 (fun _ _ => True) (parse ts .idle) (DeskCalculator.parse ts) := by
  have counts : Counts 0 0 (fun _ _ => True) (parse ts) (DeskCalculator.parse ts) := by
    cases ts with
    | nil => exact counts_pure fun _ _ _ => trivial
    | cons t ts =>
      rw [parse_of_ne_nil (List.cons_ne_nil t ts)]
      have outermost := (deeper_level (Nat.zero_add maxNesting)).follows
      refine (outermost.sum 0 wf).bind fun {a _} _ _ _ => ?_
      obtain ⟨tree, rest⟩ := a
      cases rest with
      | nil => exact counts_pure fun _ _ _ => trivial
      | cons t rest => exact counts_raise (by simp)
  exact counts .idle rfl (Nat.le_refl 0) (Nat.zero_le _)

end Counting

/-- **The two limits fit together.**  A derivation that nests at most `n` deep has a tree at most
`4 * n + 3` deep, whatever its rule, and for every `n` the tokens of some text have one as deep as
that.  So on the tokens of a text the parser, which ends as it does when what is open is counted,
refuses a tree for its depth only if the count has come to its limit of 100 exactly; and where the
count stays below, nothing is refused as too deep. -/
theorem depth_limit_needs_nesting :
    (∀ (n : Nat) {rule : Rule} (d : Derivation rule), d.nest ≤ n → d.tree.depth ≤ 4 * n + 3) ∧
    (∀ n : Nat, ∃ (text : CodeText) (d : Derivation (.chain .sum)),
      Token.scan text = .ok d.tokens ∧ d.nest ≤ n ∧ d.tree.depth = 4 * n + 3) ∧
    ∀ {text : CodeText} {ts : List Token}, Token.scan text = .ok ts →
      (Counting.parse ts .idle).1.mapError Stop.failure = parse ts ∧
      ((Counting.parse ts .idle).1 = .error .depth → (Counting.parse ts .idle).2.most = 100) ∧
      ((Counting.parse ts .idle).2.most ≤ 99 →
        ∀ f equation, parse ts = .error (.fault f equation) → f.code ≠ "3034") := by
  refine ⟨fun n rule d nest => ?_, fun n => ?_, fun {text ts} scanned => ?_⟩
  · exact Nat.le_trans (d.depth_le_deepest nest) (rule.deepest_le n)
  · exact ⟨deepestText n, deepest n 0, scan_deepestText n, (nest_deepest n 0).le, depth_deepest n 0⟩
  · have ends := Counting.ends_parse (Token.wellFormed_of_scan scanned)
    generalize Counting.parse ts .idle = counted, parse ts = plain at ends
    cases ends with
    | ok => exact ⟨rfl, nofun, fun _ f equation raised => nomatch raised⟩
    | nesting beyond =>
      refine ⟨rfl, nofun, fun below => ?_⟩
      exact absurd (beyond.symm.trans_le below) (by decide)
    | depth used =>
      refine ⟨rfl, fun _ => used, fun below => ?_⟩
      exact absurd (used.symm.trans_le below) (by decide)
    | other shallow =>
      refine ⟨rfl, nofun, fun _ f equation raised => ?_⟩
      exact (Fault.code_eq_iff f).not.2 (shallow (Except.error.inj raised))

/-- With a nesting of 100 a tree can be 403 deep, which is refused; `-(` stops for another reason
with two things open. -/
theorem depth_limit_needs_nesting_instances :
    ((deepest 1 0).nest ≤ 1 ∧ (deepest 1 0).tree.depth ≤ 7) ∧
    (∃ ts, Token.scan (deepestText 100) = .ok ts ∧ (Counting.parse ts .idle).1 = .error .depth ∧
      (Counting.parse ts .idle).2.most = 100) ∧
    ∃ ts, Token.scan "-(" = .ok ts ∧ (Counting.parse ts .idle).2.most ≤ 99 ∧
      parse ts = .error (.fault .missingNumber none) ∧ Fault.missingNumber.code ≠ "3034" := by
  obtain ⟨bound, -, limits⟩ := depth_limit_needs_nesting
  have nest : (deepest 1 0).nest ≤ 1 := (nest_deepest 1 0).le
  have tokens : (deepest 100 0).tokens = deepestTokens 100 0 [] := by
    rw [← tokens_deepest, List.append_nil]
  have deep : (Counting.parse (deepest 100 0).tokens .idle).1 = .error .depth := by
    refine eq_error_of_map (f := fun _ => ()) ?_
    rw [tokens]
    decide +kernel
  have scanned : Token.scan "-(" = .ok [⟨.operator, "-", 0⟩, ⟨.opening, "(", 1⟩] := rfl
  obtain ⟨same, -, shallow⟩ := limits scanned
  have stopped : parse [⟨.operator, "-", 0⟩, ⟨.opening, "(", 1⟩] =
      .error (.fault .missingNumber none) := same.symm.trans rfl
  have below : (Counting.parse [⟨.operator, "-", 0⟩, ⟨.opening, "(", 1⟩] .idle).2.most ≤ 99 := by
    decide +kernel
  exact ⟨⟨nest, bound 1 _ nest⟩,
    ⟨_, scan_deepestText 100, deep, (limits (scan_deepestText 100)).2.1 deep⟩,
    ⟨_, scanned, below, stopped, shallow below _ _ stopped⟩⟩

end DeskCalculator
