/-
# The readers read the derivations

Every reader of the parser belongs to a rule of the grammar, and there is *room* in it for a certain
nesting.  On well-formed tokens it reads a derivation of its rule that fits the room and whose tree
is not too deep, up to where the rule stops; it reads each such derivation; and whatever else it is
given makes it fail with a fault (`Reads`).

The readers are put together from others, so the proof goes from the parts to the whole: what a
chain, a minus sign, an exponent, a call and a group read follows from what the readers inside them
read.  Things that nest call the readers of the next deeper level, which have one room less, and the
induction on the levels ends at a reader without room, which reads nothing (`reads_level`).
-/

import DeskCalculator.Proofs.Grammar.Unambiguous

namespace DeskCalculator

/-- The depth of a graded tree is that of its tree. -/
theorem Graded.eq_of_tree : ∀ {g g' : Graded}, g.tree = g'.tree → g = g'
  | ⟨_, _, rfl⟩, ⟨_, _, rfl⟩, rfl => rfl

/-- A node is deeper than its left operand, unless it only makes a chain longer. -/
theorem Expr.depth_left_le (operator : String) (left right : Expr) :
    left.depth ≤ (Expr.binary operator left right).depth := by
  rw [Expr.depth]
  split
  · exact Nat.le_max_left _ _
  · exact Nat.le_succ_of_le (Nat.le_max_left _ _)

/-- A node is deeper than its right operand. -/
theorem Expr.depth_right_lt (operator : String) (left right : Expr) :
    right.depth < (Expr.binary operator left right).depth := by
  rw [Expr.depth]
  split
  · exact Nat.lt_of_succ_le (Nat.le_max_right _ _)
  · exact Nat.lt_succ_of_le (Nat.le_max_right _ _)

namespace Reader

/-! ## What the parts of a reader do -/

/-- A tree passes the check as it is, if it is not too deep. -/
theorem checked_eq_ok {g g' : Graded} :
    checked g = .ok g' ↔ g = g' ∧ g.depth ≤ maxDepth := by
  unfold checked
  split
  · rename_i deep
    refine ⟨fun h => ?_, fun h => absurd deep (Nat.not_lt.2 h.2)⟩
    cases h
  · rename_i flat
    exact ⟨fun h => ⟨Except.ok.inj h, Nat.not_lt.1 flat⟩, fun h => congrArg Except.ok h.1⟩

/-- A number and a constant are never too deep. -/
theorem one_le_maxDepth : 1 ≤ maxDepth := by decide

/-- The check fails only with a fault. -/
theorem isFault_of_checked {g : Graded} {e : Failure} (h : checked g = .error e) : e.IsFault := by
  unfold checked at h
  split at h
  · exact Fault.isFault_of_raise h
  · cases h

/-- A tree that has been put around another comes from reading the inner one, and is not too
deep. -/
theorem wrap_eq_ok {node : Graded → Graded} {r : Reader} {ts rest : List Token} {g : Graded} :
    (r.wrap node).read ts = .ok (g, rest) ↔
      ∃ inner, r.read ts = .ok (inner, rest) ∧ node inner = g ∧ g.depth ≤ maxDepth := by
  constructor
  · intro h
    obtain ⟨⟨inner, rest'⟩, hr, h⟩ := bind_eq_ok.1 h
    obtain ⟨g', hc, h⟩ := bind_eq_ok.1 h
    cases h
    obtain ⟨rfl, depth⟩ := checked_eq_ok.1 hc
    exact ⟨inner, hr, rfl, depth⟩
  · rintro ⟨inner, hr, rfl, depth⟩
    exact bind_eq_ok.2 ⟨_, hr, bind_eq_ok.2 ⟨_, checked_eq_ok.2 ⟨rfl, depth⟩, rfl⟩⟩

/-- Putting a tree around another fails only with a fault. -/
theorem isFault_of_wrap {node : Graded → Graded} {r : Reader} {ts : List Token} {e : Failure}
    (h : (r.wrap node).read ts = .error e) (inner : r.read ts = .error e → e.IsFault) :
    e.IsFault := by
  rcases bind_eq_error.1 h with hr | ⟨a, -, h⟩
  · exact inner hr
  · rcases bind_eq_error.1 h with hc | ⟨g, -, h⟩
    · exact isFault_of_checked hc
    · cases h

/-- Behind an operator that a chain accepts, it takes an operand and goes on. -/
theorem links_cons (accepts : Token → Bool) (operand : Reader) (chain : Graded) (t : Token)
    (ts : List Token) (h : accepts t = true) :
    links accepts operand chain (t :: ts) = (operand.behind t).read ts >>= fun a =>
      checked (.binary t.text chain a.1) >>= fun chain => links accepts operand chain a.2 := by
  rw [links, if_pos h]
  split
  · rename_i failure read
    rw [read]
    rfl
  · rename_i right rest read
    rw [read]
    change _ = checked (.binary t.text chain right) >>= fun chain =>
      links accepts operand chain rest
    cases checked (.binary t.text chain right) <;> rfl

/-- A chain stops in front of what it does not accept. -/
theorem links_cons_of_not (accepts : Token → Bool) (operand : Reader) (chain : Graded) (t : Token)
    (ts : List Token) (h : accepts t = false) :
    links accepts operand chain (t :: ts) = .ok (chain, t :: ts) := by
  rw [links, h]
  rfl

/-- Closing takes a closing parenthesis off the front. -/
theorem close_eq_ok {unclosed : Fault} {ts rest : List Token} :
    close unclosed ts = .ok rest ↔ ∃ t, t.kind = .closing ∧ ts = t :: rest := by
  cases ts with
  | nil =>
    constructor
    · intro h
      cases h
    · rintro ⟨t, -, h⟩
      cases h
  | cons t ts =>
    simp only [close]
    split
    · rename_i hk
      constructor
      · intro h
        cases h
        exact ⟨t, hk, rfl⟩
      · rintro ⟨t', -, h⟩
        cases h
        rfl
    · rename_i hk
      constructor
      · intro h
        cases h
      · rintro ⟨t', hk', h⟩
        cases h
        exact absurd hk' hk

/-- Closing fails only with a fault. -/
theorem isFault_of_close {unclosed : Fault} {ts : List Token} {e : Failure}
    (h : close unclosed ts = .error e) : e.IsFault := by
  cases ts with
  | nil => exact Fault.isFault_of_raise h
  | cons t ts =>
    simp only [close] at h
    split at h
    · cases h
    · exact Fault.isFault_of_raise h

/-- What is read up to a closing parenthesis is what is inside of it. -/
theorem parenthesized_eq_ok {unclosed : Fault} {r : Reader} {ts rest : List Token} {g : Graded} :
    (r.parenthesized unclosed).read ts = .ok (g, rest) ↔
      ∃ t, t.kind = .closing ∧ r.read ts = .ok (g, t :: rest) := by
  constructor
  · intro h
    obtain ⟨⟨inside, behind⟩, hr, h⟩ := bind_eq_ok.1 h
    obtain ⟨rest', hc, h⟩ := bind_eq_ok.1 h
    cases h
    obtain ⟨t, closes, rfl⟩ := close_eq_ok.1 hc
    exact ⟨t, closes, hr⟩
  · rintro ⟨t, closes, hr⟩
    exact bind_eq_ok.2 ⟨_, hr, bind_eq_ok.2 ⟨rest, close_eq_ok.2 ⟨t, closes, rfl⟩, rfl⟩⟩

/-- Reading between parentheses fails only with a fault. -/
theorem isFault_of_parenthesized {unclosed : Fault} {r : Reader} {ts : List Token} {e : Failure}
    (h : (r.parenthesized unclosed).read ts = .error e)
    (inside : r.read ts = .error e → e.IsFault) : e.IsFault := by
  rcases bind_eq_error.1 h with hr | ⟨a, -, h⟩
  · exact inside hr
  · rcases bind_eq_error.1 h with hc | ⟨rest, -, h⟩
    · exact isFault_of_close hc
    · cases h

end Reader

namespace Grammar

open Reader

/-! ## What a reader reads -/

/-- Tokens that do not begin with an opening parenthesis: a constant in front of one is refused. -/
def NoneOpens (ts : List Token) : Prop := ∀ t ∈ ts.head?, t.kind ≠ .opening

/-- No tokens open anything. -/
theorem noneOpens_nil : NoneOpens [] := fun _ h => by cases h

/-- Tokens open nothing in front if the first one does not. -/
theorem noneOpens_cons {t : Token} {ts : List Token} :
    NoneOpens (t :: ts) ↔ t.kind ≠ .opening := by
  simp [NoneOpens]

/-- A reader reads the derivations of a rule that nest less than some room: what it reads is one,
it reads each of them, and it fails only with faults. -/
structure Reads (r : Reader) (rule : Rule) (room : Nat) : Prop where
  sound : ∀ {ts rest : List Token} {g : Graded}, (∀ t ∈ ts, t.WellFormed) →
    r.read ts = .ok (g, rest) → ∃ d : Derivation rule, ts = d.tokens ++ rest ∧ d.tree = g.tree ∧
      d.nest < room ∧ g.depth ≤ maxDepth ∧ Stops rule rest
  complete : ∀ {d : Derivation rule} {rest : List Token}, d.nest < room →
    d.tree.depth ≤ maxDepth → Stops rule rest → NoneOpens rest →
    r.read (d.tokens ++ rest) = .ok (.ofTree d.tree, rest)
  faults : ∀ {ts : List Token} {e : Failure}, (∀ t ∈ ts, t.WellFormed) →
    r.read ts = .error e → e.IsFault

/-- The tokens behind a derivation are as well-formed as all. -/
theorem wellFormed_append {ts rest : List Token} (h : ∀ t ∈ ts ++ rest, t.WellFormed) :
    ∀ t ∈ rest, t.WellFormed :=
  fun t ht => h t (List.mem_append_right ts ht)

/-- The first token and the others are well-formed if all of them are. -/
theorem wellFormed_cons {t : Token} {ts : List Token} (h : ∀ u ∈ t :: ts, u.WellFormed) :
    t.WellFormed ∧ ∀ u ∈ ts, u.WellFormed :=
  List.forall_mem_cons.1 h

/-- A well-formed token that is one of some operators has one of their signs for its text. -/
theorem isSign_of_isOperator {t : Token} {symbols : List Char} (wf : t.WellFormed)
    (h : isOperator symbols t = true) : t.IsSign symbols := by
  have hk : t.kind = .operator := by
    by_contra hk
    rw [isOperator_of_kind_ne hk] at h
    cases h
  obtain ⟨-, c, -, ht⟩ := wf.operator hk
  rw [isOperator_eq hk ht] at h
  exact ⟨hk, c, List.contains_iff_mem.1 h, ht⟩

/-- Without room, nothing that has a derivation is read. -/
theorem reads_exhausted (rule : Rule) : Reads exhausted rule 0 where
  sound _ h := by cases h
  complete h := absurd h (Nat.not_lt_zero _)
  faults _ h := Fault.isFault_of_raise h

/-- Behind an operator, a reader reads what it reads anyway. -/
theorem Reads.behind {r : Reader} {rule : Rule} {room : Nat} (h : Reads r rule room)
    (operator : Token) : Reads (r.behind operator) rule room where
  sound {ts rest g} wf hr := by
    cases ts with
    | nil => cases hr
    | cons t ts => exact h.sound wf hr
  complete {d rest} hn hd hs ho := by
    have hr := h.complete hn hd hs ho
    cases hts : d.tokens ++ rest with
    | nil =>
      rw [hts] at hr
      exact absurd (r.shorter hr) (Nat.not_lt_zero _)
    | cons t ts =>
      rw [hts] at hr
      exact hr
  faults {ts e} wf hr := by
    cases ts with
    | nil => exact Fault.isFault_of_raise hr
    | cons t ts => exact h.faults wf hr

/-! ## Chains -/

/-- The rest of a chain begins with an operator, so it opens nothing. -/
theorem Links.noneOpens {tier : Tier} (links : Links tier) {rest : List Token}
    (h : NoneOpens rest) : NoneOpens (links.tokens ++ rest) := by
  cases links with
  | nil => exact h
  | cons operator operand more isSign => exact noneOpens_cons.2 (by rw [isSign.1]; decide)

/-- A tree gets no shallower by the rest of a chain. -/
theorem Links.depth_le_onto : ∀ {tier : Tier} (links : Links tier) (front : Expr),
    front.depth ≤ (links.onto front).depth
  | _, .nil, _ => Nat.le_refl _
  | _, .cons operator operand more _, front =>
    Nat.le_trans (front.depth_left_le operator.text operand.tree)
      (more.depth_le_onto (.binary operator.text front operand.tree))

/-- The rest of a chain that has been read is one of a derivation. -/
theorem sound_links {tier : Tier} {operand : Reader} {room : Nat}
    (h : Reads operand tier.operand room) (hroom : 0 < room) {front g : Graded}
    {ts rest : List Token} (wf : ∀ t ∈ ts, t.WellFormed) (hs : Stops tier.operand ts)
    (hd : front.depth ≤ maxDepth)
    (hr : links (isOperator tier.symbols) operand front ts = .ok (g, rest)) :
    ∃ l : Links tier, ts = l.tokens ++ rest ∧ l.onto front.tree = g.tree ∧ l.nest < room ∧
      g.depth ≤ maxDepth ∧ Stops (.chain tier) rest := by
  fun_induction links (isOperator tier.symbols) operand front ts with
  | case1 =>
    cases hr
    exact ⟨.nil, rfl, rfl, hroom, hd, stops_nil _⟩
  | case2 => cases hr
  | case3 => cases hr
  | case4 front t ts accepted right ts' read front' hc ih =>
    obtain ⟨isSign, wf⟩ := wellFormed_cons wf
    obtain ⟨d, rfl, tree, nest, -, stops⟩ := (h.behind t).sound wf read
    obtain ⟨rfl, depth⟩ := checked_eq_ok.1 hc
    obtain ⟨l, rfl, tree', nest', depth', stops'⟩ :=
      ih (wellFormed_append wf) stops depth hr
    refine ⟨.cons t d l (isSign_of_isOperator isSign accepted), ?_, ?_, ?_, depth', stops'⟩
    · rw [Links.tokens, List.cons_append, List.append_assoc]
    · rw [Links.onto, tree]
      exact tree'
    · rw [Links.nest]
      exact Nat.max_lt.2 ⟨nest, nest'⟩
  | case5 front t ts refused =>
    -- The chain stops here, and its last operand stopped here before.
    cases hr
    refine ⟨.nil, rfl, rfl, hroom, hd, stops_cons.2 fun symbols hsymbols => ?_⟩
    rw [behind_chain] at hsymbols
    rcases List.mem_cons.1 hsymbols with rfl | hsymbols
    · exact Bool.eq_false_iff.2 refused
    · exact hs.isOperator_eq_false hsymbols

/-- The rest of a chain of a derivation is read. -/
theorem complete_links {tier : Tier} {operand : Reader} {room : Nat}
    (h : Reads operand tier.operand room) :
    ∀ (l : Links tier) {front : Expr} {rest : List Token}, l.nest < room →
      (l.onto front).depth ≤ maxDepth → Stops (.chain tier) rest → NoneOpens rest →
      links (isOperator tier.symbols) operand (.ofTree front) (l.tokens ++ rest) =
        .ok (.ofTree (l.onto front), rest)
  | .nil, front, rest, _, _, hs, _ => by
      cases rest with
      | nil => rw [Links.tokens, List.nil_append, links]; rfl
      | cons t rest =>
        have refused : isOperator tier.symbols t = false :=
          hs.isOperator_eq_false (by rw [behind_chain]; exact List.mem_cons_self)
        rw [Links.tokens, List.nil_append, links, refused]
        rfl
  | .cons operator d more isSign, front, rest, hn, hd, hs, ho => by
      rw [Links.nest, Nat.max_lt] at hn
      have depth : (Expr.binary operator.text front d.tree).depth ≤ maxDepth :=
        Nat.le_trans (more.depth_le_onto _) hd
      have shallow : d.tree.depth ≤ maxDepth :=
        Nat.le_trans (Nat.le_of_lt (Expr.depth_right_lt _ _ _)) depth
      have read := (h.behind operator).complete hn.1 shallow (more.stops hs) (more.noneOpens ho)
      have hc : checked (.binary operator.text (.ofTree front) (.ofTree d.tree)) =
          .ok (.ofTree (.binary operator.text front d.tree)) := checked_eq_ok.2 ⟨rfl, depth⟩
      rw [Links.tokens, List.cons_append, List.append_assoc, links, isSign.isOperator]
      simp only [if_true]
      split
      · rename_i failure failed
        rw [read] at failed
        cases failed
      · rename_i right ts' succeeded
        rw [read] at succeeded
        cases succeeded
        simp only [hc]
        exact complete_links h more hn.2 hd hs ho

/-- The links of a chain fail only with a fault. -/
theorem faults_links {tier : Tier} {operand : Reader} {room : Nat}
    (h : Reads operand tier.operand room) {front : Graded} {ts : List Token} {e : Failure}
    (wf : ∀ t ∈ ts, t.WellFormed)
    (hr : links (isOperator tier.symbols) operand front ts = .error e) : e.IsFault := by
  fun_induction links (isOperator tier.symbols) operand front ts with
  | case1 => cases hr
  | case2 front t ts _ failure failed =>
    cases hr
    exact (h.behind t).faults (wellFormed_cons wf).2 failed
  | case3 front t ts _ right ts' _ failure failed =>
    cases hr
    exact isFault_of_checked failed
  | case4 front t ts _ right ts' read front' _ ih =>
    obtain ⟨d, rfl, -⟩ := (h.behind t).sound (wellFormed_cons wf).2 read
    exact ih (wellFormed_append (wellFormed_cons wf).2) hr
  | case5 => cases hr

/-- **A chain of what its operands read.** -/
theorem Reads.chain (tier : Tier) {operand : Reader} {room : Nat}
    (h : Reads operand tier.operand room) :
    Reads (chain (isOperator tier.symbols) operand) (.chain tier) room where
  sound {ts rest g} wf hr := by
    obtain ⟨⟨first, ts'⟩, ho, hl⟩ := bind_eq_ok.1 hr
    obtain ⟨d, rfl, tree, nest, depth, stops⟩ := h.sound wf ho
    obtain ⟨l, rfl, tree', nest', depth', stops'⟩ :=
      sound_links h (Nat.zero_lt_of_lt nest) (wellFormed_append wf) stops depth hl
    refine ⟨.chain d l, ?_, ?_, ?_, depth', stops'⟩
    · rw [Derivation.tokens, List.append_assoc]
    · rw [Derivation.tree, tree]
      exact tree'
    · rw [Derivation.nest]
      exact Nat.max_lt.2 ⟨nest, nest'⟩
  complete {d rest} hn hd hs ho := by
    cases d with
    | chain first l =>
      rw [Derivation.nest, Nat.max_lt] at hn
      rw [Derivation.tree] at hd
      have read := h.complete hn.1 (Nat.le_trans (l.depth_le_onto _) hd) (l.stops hs)
        (l.noneOpens ho)
      rw [Derivation.tokens, List.append_assoc]
      exact bind_eq_ok.2 ⟨_, read, complete_links h l hn.2 hd hs ho⟩
  faults {ts e} wf hr := by
    rcases bind_eq_error.1 hr with ho | ⟨⟨first, ts'⟩, ho, hl⟩
    · exact h.faults wf ho
    · obtain ⟨d, rfl, -⟩ := h.sound wf ho
      exact faults_links h (wellFormed_append wf) hl

/-! ## Levels -/

/-- The readers of a level have the same room. -/
structure Level.Reads (level : Level) (room : Nat) : Prop where
  sum : Grammar.Reads level.sum (.chain .sum) room
  power : Grammar.Reads level.power .power room
  unary : Grammar.Reads level.unary .unary room

/-- The inside of a pair of parentheses stops in front of the closing one. -/
theorem stops_closing {rule : Rule} {t : Token} (h : t.kind = .closing) (ts : List Token) :
    Stops rule (t :: ts) :=
  stops_of_kind_ne (by rw [h]; decide) ts

/-- A closing parenthesis opens nothing. -/
theorem noneOpens_closing {t : Token} (h : t.kind = .closing) (ts : List Token) :
    NoneOpens (t :: ts) :=
  noneOpens_cons.2 (by rw [h]; decide)

variable {deeper : Level} {room : Nat}

/-- What is read between parentheses has a derivation with room for one parenthesis more. -/
theorem sound_parenthesized (h : Level.Reads deeper room) {unclosed : Fault}
    {ts rest : List Token} {g : Graded} (wf : ∀ t ∈ ts, t.WellFormed)
    (hr : (deeper.sum.parenthesized unclosed).read ts = .ok (g, rest)) :
    ∃ (d : Derivation (.chain .sum)) (closing : Token), closing.kind = .closing ∧
      ts = d.tokens ++ closing :: rest ∧ d.tree = g.tree ∧ d.nest < room ∧ g.depth ≤ maxDepth := by
  obtain ⟨closing, closes, read⟩ := parenthesized_eq_ok.1 hr
  obtain ⟨d, hts, tree, nest, depth, -⟩ := h.sum.sound wf read
  exact ⟨d, closing, closes, hts, tree, nest, depth⟩

/-- A derivation with room for one parenthesis more is read between parentheses. -/
theorem complete_parenthesized (h : Level.Reads deeper room) (unclosed : Fault)
    {d : Derivation (.chain .sum)} {closing : Token} (rest : List Token) (hn : d.nest < room)
    (hd : d.tree.depth ≤ maxDepth) (closes : closing.kind = .closing) :
    (deeper.sum.parenthesized unclosed).read (d.tokens ++ [closing] ++ rest) =
      .ok (.ofTree d.tree, rest) := by
  refine parenthesized_eq_ok.2 ⟨closing, closes, ?_⟩
  rw [List.append_assoc, List.singleton_append]
  exact h.sum.complete hn hd (stops_closing closes rest) (noneOpens_closing closes rest)

/-- A name that has been read is a constant, or a function with its argument. -/
theorem sound_named (h : Level.Reads deeper room) {name : Token} (isName : name.kind = .identifier)
    {ts rest : List Token} {g : Graded} (wf : ∀ t ∈ ts, t.WellFormed)
    (hr : named deeper name.text ts = .ok (g, rest)) :
    ∃ d : Derivation .atom, name :: ts = d.tokens ++ rest ∧ d.tree = g.tree ∧
      d.nest < room + 1 ∧ g.depth ≤ maxDepth := by
  have uncalled (hu : named.uncalled name.text ts = .ok (g, rest)) :
      ∃ d : Derivation .atom, name :: ts = d.tokens ++ rest ∧ d.tree = g.tree ∧
        d.nest < room + 1 ∧ g.depth ≤ maxDepth := by
    unfold named.uncalled at hu
    split at hu
    · rename_i known
      cases hu
      exact ⟨.constant name isName known, rfl, rfl, Nat.zero_lt_succ _, one_le_maxDepth⟩
    · split at hu <;> cases hu
  unfold named at hr
  split at hr
  · rename_i t ts
    split at hr
    · rename_i opens
      split at hr
      · rename_i known
        obtain ⟨inner, hp, rfl, depth⟩ := wrap_eq_ok.1 hr
        obtain ⟨d, closing, closes, rfl, tree, nest, -⟩ :=
          sound_parenthesized h (wellFormed_cons wf).2 hp
        refine ⟨.call name t d closing isName known opens closes, ?_, ?_, ?_, depth⟩
        · simp [Derivation.tokens]
        · rw [Derivation.tree, tree]
          rfl
        · rw [Derivation.nest]
          omega
      · split at hr <;> cases hr
    · exact uncalled hr
  · exact uncalled hr

/-- Reading behind a name fails only with a fault. -/
theorem faults_named (h : Level.Reads deeper room) {name : String} {ts : List Token} {e : Failure}
    (wf : ∀ t ∈ ts, t.WellFormed) (hr : named deeper name ts = .error e) : e.IsFault := by
  have uncalled {ts : List Token} (hu : named.uncalled name ts = .error e) : e.IsFault := by
    unfold named.uncalled at hu
    split at hu
    · cases hu
    · split at hu <;> exact Fault.isFault_of_raise hu
  unfold named at hr
  split at hr
  · split at hr
    · split at hr
      · exact isFault_of_wrap hr fun hp =>
          isFault_of_parenthesized hp (h.sum.faults (wellFormed_cons wf).2)
      · split at hr <;> exact Fault.isFault_of_raise hr
    · exact uncalled hr
  · exact uncalled hr

/-- A constant reads as itself in front of everything but an opening parenthesis. -/
theorem named_of_isConstant {name : String} (known : Names.isConstant name = true)
    {rest : List Token} (ho : NoneOpens rest) :
    named deeper name rest = .ok (.constant name, rest) := by
  cases rest with
  | nil => simp [named, named.uncalled, known]
  | cons t rest => simp [named, named.uncalled, known, ho t rfl]

/-- Factors are read in one more than the room of the deeper level. -/
theorem reads_factor (h : Level.Reads deeper room) : Reads (factor deeper) .atom (room + 1) where
  sound {ts rest g} wf hr := by
    cases ts with
    | nil => cases hr
    | cons t ts =>
      have wf' := (wellFormed_cons wf).2
      simp only [factor] at hr
      split at hr
      · rename_i isNumber
        split at hr
        · rename_i x reads
          cases hr
          exact ⟨.number t x isNumber reads, rfl, rfl, Nat.zero_lt_succ _, one_le_maxDepth,
            stops_atom _⟩
        · cases hr
      · rename_i opens
        obtain ⟨d, closing, closes, rfl, tree, nest, depth⟩ := sound_parenthesized h wf' hr
        refine ⟨.group t d closing opens closes, ?_, tree, ?_, depth, stops_atom _⟩
        · simp [Derivation.tokens]
        · rw [Derivation.nest]
          omega
      · rename_i isName
        obtain ⟨d, hts, tree, nest, depth⟩ := sound_named h isName wf' hr
        exact ⟨d, hts, tree, nest, depth, stops_atom _⟩
      · cases hr
  complete {d rest} hn hd _ ho := by
    cases d with
    | number t x isNumber reads => simp [Derivation.tokens, factor, isNumber, reads]; rfl
    | constant name isName known =>
      simp only [Derivation.tokens, List.singleton_append, factor, isName]
      exact named_of_isConstant known ho
    | call name opening d closing isName known opens closes =>
      rw [Derivation.nest] at hn
      rw [Derivation.tree, Expr.depth] at hd
      have read := complete_parenthesized h (.unclosedCall name.text) rest
        (by omega : d.nest < room) (by omega) closes
      simp only [Derivation.tokens, List.cons_append, factor, isName, named, opens, known, if_true]
      exact wrap_eq_ok.2 ⟨_, read, rfl, hd⟩
    | group opening d closing opens closes =>
      rw [Derivation.nest] at hn
      simp only [Derivation.tokens, List.cons_append, factor, opens]
      exact complete_parenthesized h _ rest (by omega) hd closes
  faults {ts e} wf hr := by
    cases ts with
    | nil => exact Fault.isFault_of_raise hr
    | cons t ts =>
      obtain ⟨wellFormed, wf'⟩ := wellFormed_cons wf
      simp only [factor] at hr
      split at hr
      · rename_i isNumber
        obtain ⟨x, reads⟩ := wellFormed.number isNumber
        rw [reads] at hr
        cases hr
      · exact isFault_of_parenthesized hr (h.sum.faults wf')
      · exact faults_named h wf' hr
      · exact Fault.isFault_of_raise hr

/-- Signed operands are read in one more than the room of the deeper level. -/
theorem reads_unary (h : Level.Reads deeper room) : Reads (unary deeper) .unary (room + 1) where
  sound {ts rest g} wf hr := by
    -- Without a sign it is an atom, at the end of the tokens as well.
    have atom (hr : (factor deeper).read ts = .ok (g, rest)) :
        ∃ d : Derivation .unary, ts = d.tokens ++ rest ∧ d.tree = g.tree ∧ d.nest < room + 1 ∧
          g.depth ≤ maxDepth ∧ Stops .unary rest := by
      obtain ⟨d, hts, tree, nest, depth, -⟩ := (reads_factor h).sound wf hr
      exact ⟨.atom d, hts, tree, nest, depth, stops_unary _⟩
    cases ts with
    | nil => exact atom hr
    | cons t ts =>
      obtain ⟨wellFormed, wf'⟩ := wellFormed_cons wf
      simp only [unary] at hr
      split at hr
      · rename_i isMinus
        obtain ⟨inner, read, rfl, depth⟩ := wrap_eq_ok.1 hr
        obtain ⟨d, rfl, tree, nest, -⟩ := h.unary.sound wf' read
        refine ⟨.minus t d (isSign_of_isOperator wellFormed isMinus), rfl, ?_, ?_, depth,
          stops_unary _⟩
        · rw [Derivation.tree, tree]
          rfl
        · rw [Derivation.nest]
          omega
      · exact atom hr
  complete {d rest} hn hd hs ho := by
    cases d with
    | atom d =>
      have read := (reads_factor h).complete hn hd (stops_atom rest) ho
      obtain ⟨t, ts, hts, notOperator⟩ := d.tokens_atom
      rw [hts] at read
      simp only [Derivation.tokens, hts, List.cons_append, unary,
        isOperator_of_kind_ne notOperator, if_false, Bool.false_eq_true]
      exact read
    | minus sign d isMinus =>
      rw [Derivation.nest] at hn
      rw [Derivation.tree, Expr.depth] at hd
      have read := h.unary.complete (by omega : d.nest < room) (by omega) (stops_unary rest) ho
      simp only [Derivation.tokens, List.cons_append, unary, isMinus.isOperator, if_true]
      exact wrap_eq_ok.2 ⟨_, read, rfl, hd⟩
  faults {ts e} wf hr := by
    cases ts with
    | nil => exact (reads_factor h).faults wf hr
    | cons t ts =>
      simp only [unary] at hr
      split at hr
      · exact isFault_of_wrap hr (h.unary.faults (wellFormed_cons wf).2)
      · exact (reads_factor h).faults wf hr

/-- Powers are read in one more than the room of the deeper level. -/
theorem reads_power (h : Level.Reads deeper room) : Reads (power deeper) .power (room + 1) where
  sound {ts rest g} wf hr := by
    obtain ⟨⟨base, ts'⟩, hu, he⟩ := bind_eq_ok.1 hr
    obtain ⟨d, rfl, tree, nest, depth, -⟩ := (reads_unary h).sound wf hu
    cases ts' with
    | nil =>
      cases he
      exact ⟨.unary d, rfl, tree, nest, depth, stops_nil _⟩
    | cons t ts' =>
      obtain ⟨wellFormed, wf'⟩ := wellFormed_cons (wellFormed_append wf)
      simp only [exponent] at he
      split at he
      · rename_i isCaret
        obtain ⟨inner, read, rfl, depth'⟩ := wrap_eq_ok.1 he
        obtain ⟨d', rfl, tree', nest', -, stops⟩ := (h.power.behind t).sound wf' read
        refine ⟨.raised d t d' (isSign_of_isOperator wellFormed isCaret), ?_, ?_, ?_, depth',
          stops⟩
        · simp [Derivation.tokens]
        · rw [Derivation.tree, tree, tree']
          rfl
        · rw [Derivation.nest]
          omega
      · rename_i notCaret
        cases he
        refine ⟨.unary d, rfl, tree, nest, depth, stops_cons.2 fun symbols hsymbols => ?_⟩
        obtain rfl := List.mem_singleton.1 hsymbols
        exact Bool.eq_false_iff.2 notCaret
  complete {d rest} hn hd hs ho := by
    cases d with
    | unary d =>
      have read := (reads_unary h).complete hn hd (stops_unary rest) ho
      refine bind_eq_ok.2 ⟨_, read, ?_⟩
      cases rest with
      | nil => rfl
      | cons t rest =>
        have refused : isOperator ['^'] t = false := hs.isOperator_eq_false (by decide)
        simp only [exponent, refused]
        rfl
    | raised base operator d isCaret =>
      rw [Derivation.nest] at hn
      rw [Derivation.tree] at hd
      have shallow : base.tree.depth ≤ maxDepth := Nat.le_trans (Expr.depth_left_le _ _ _) hd
      have shallow' : d.tree.depth ≤ maxDepth :=
        Nat.le_trans (Nat.le_of_lt (Expr.depth_right_lt _ _ _)) hd
      have notOpening : NoneOpens (operator :: (d.tokens ++ rest)) :=
        noneOpens_cons.2 (by rw [isCaret.1]; decide)
      have readBase := (reads_unary h).complete (by omega : base.nest < room + 1) shallow
        (stops_unary _) notOpening
      have read := (h.power.behind operator).complete (by omega : d.nest < room) shallow' hs ho
      rw [Derivation.tokens, List.append_assoc, List.cons_append]
      refine bind_eq_ok.2 ⟨_, readBase, ?_⟩
      simp only [exponent, isCaret.isOperator, if_true]
      exact wrap_eq_ok.2 ⟨_, read, rfl, hd⟩
  faults {ts e} wf hr := by
    rcases bind_eq_error.1 hr with hu | ⟨⟨base, ts'⟩, hu, he⟩
    · exact (reads_unary h).faults wf hu
    · obtain ⟨d, rfl, -⟩ := (reads_unary h).sound wf hu
      cases ts' with
      | nil => cases he
      | cons t ts' =>
        simp only [exponent] at he
        split at he
        · exact isFault_of_wrap he
            ((h.power.behind t).faults (wellFormed_cons (wellFormed_append wf)).2)
        · cases he

/-- **Every level reads what fits its room.** -/
theorem reads_level : ∀ n : Nat, Level.Reads (level n) n
  | 0 => ⟨reads_exhausted _, reads_exhausted _, reads_exhausted _⟩
  | n + 1 =>
    have h := reads_level n
    ⟨.chain .sum (.chain .term (reads_power h)), reads_power h, reads_unary h⟩

end Grammar
end DeskCalculator
