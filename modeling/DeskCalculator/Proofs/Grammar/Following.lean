/-
# A run follows the readers

A reader and a run go over the same tokens.  Where the reader returns, the run stands behind an
operand, and where the reader fails, at any depth of the recursion, the run is refused or ends with
the same fault; and once a run has been refused, what the reader does is settled, whatever tokens
come later (`Follows`).  A fault of nesting is the exception: a run has no limits.

As with what a reader reads, the proof goes from the parts to the whole, one token at a time
(`Follows.step`, `Follows.refused`, `Follows.ended`) and one reader after another (`Follows.bind`).
For the parser this says which fault it raises (`diagnose_of_parse`), and that no token behind a
refused one plays a part in it (`parse_append`).
-/

import DeskCalculator.Proofs.Grammar.Parsing
import DeskCalculator.Proofs.Grammar.Viable

namespace DeskCalculator
namespace Grammar

open Progress Reader

/-- More tokens behind what a reader leaves. -/
def extended (more : List Token) (a : Graded × List Token) : Graded × List Token :=
  (a.1, a.2 ++ more)

/-- A run from a place follows a reader on tokens.  The reader stops with the same parentheses
unclosed as those outside of what it reads. -/
structure Follows (p : Progress) (outer : List Opening)
    (read : List Token → Except Failure (Graded × List Token)) (ts : List Token) : Prop where
  ok : ∀ {g : Graded} {rest : List Token}, read ts = .ok (g, rest) → ∃ front constant,
    ts = front ++ rest ∧ p.run front = .ok ⟨.behind constant, outer⟩ ∧
      (constant.isSome → NoneOpens rest)
  fault : ∀ {f : Fault}, read ts = .error (.fault f none) → f ≠ .tooDeep → p.diagnose ts = some f
  stable : ∀ {f : Fault}, p.run ts = .error f → ∀ more,
    read (ts ++ more) = (read ts).map (extended more)

variable {p q : Progress} {outer middle : List Opening} {constant : Option String}
  {read read' : List Token → Except Failure (Graded × List Token)} {ts : List Token} {t : Token}
  {f : Fault} {g : Graded}

/-! ## One token at a time -/

/-- A reader that takes a token goes on with the run that takes it. -/
theorem Follows.step (step : Step p t q) (h : Follows q outer read' ts)
    (eq : ∀ us, read (t :: us) = read' us) : Follows p outer read (t :: ts) where
  ok hr := by
    rw [eq] at hr
    obtain ⟨front, constant, rfl, run, spared⟩ := h.ok hr
    exact ⟨t :: front, constant, rfl, by rw [step.run_cons, run], spared⟩
  fault hr limit := by
    rw [eq] at hr
    rw [step.diagnose_cons, h.fault hr limit]
  stable run more := by
    rw [step.run_cons] at run
    rw [List.cons_append, eq, eq, h.stable run]

/-- A reader that raises the fault of a refusal is followed. -/
theorem Follows.refused (refusal : Refusal p t f) (eq : ∀ us, read (t :: us) = f.raise) :
    Follows p outer read (t :: ts) where
  ok hr := by
    rw [eq] at hr
    cases hr
  fault hr _ := by
    rw [eq] at hr
    cases hr
    exact refusal.diagnose_cons ts
  stable _ more := by
    rw [List.cons_append, eq, eq]
    rfl

/-- A reader that raises what is wrong at the end is followed there. -/
theorem Follows.ended (atEnd : p.atEnd = some f) (eq : read [] = f.raise) :
    Follows p outer read [] where
  ok hr := by
    rw [eq] at hr
    cases hr
  fault hr _ := by
    rw [eq] at hr
    cases hr
    exact atEnd
  stable run := by cases run

/-- A reader that is done at the end is followed there. -/
theorem Follows.done_nil (eq : read [] = .ok (g, [])) :
    Follows ⟨.behind constant, outer⟩ outer read [] where
  ok hr := by
    rw [eq] at hr
    cases hr
    exact ⟨[], constant, rfl, rfl, fun _ => noneOpens_nil⟩
  fault hr _ := by
    rw [eq] at hr
    cases hr
  stable run := by cases run

/-- A reader that is done in front of a token leaves it to the run. -/
theorem Follows.done_cons (spared : constant.isSome → t.kind ≠ .opening)
    (eq : ∀ us, read (t :: us) = .ok (g, t :: us)) :
    Follows ⟨.behind constant, outer⟩ outer read (t :: ts) where
  ok hr := by
    rw [eq] at hr
    cases hr
    exact ⟨[], constant, rfl, rfl, fun some => noneOpens_cons.2 (spared some)⟩
  fault hr _ := by
    rw [eq] at hr
    cases hr
  stable _ more := by
    rw [List.cons_append, eq, eq]
    rfl

/-- A reader that takes nothing is followed if no constant is called. -/
theorem Follows.pure (spared : constant.isSome → NoneOpens ts) :
    Follows ⟨.behind constant, outer⟩ outer (fun us => .ok (g, us)) ts := by
  cases ts with
  | nil => exact .done_nil rfl
  | cons t ts => exact .done_cons (fun some => noneOpens_cons.1 (spared some)) fun _ => rfl

/-- Only what a reader does with the tokens at hand counts. -/
theorem Follows.congr (h : Follows p outer read' ts)
    (eq : ∀ more, read (ts ++ more) = read' (ts ++ more)) : Follows p outer read ts := by
  have same : read ts = read' ts := by simpa using eq []
  exact ⟨fun hr => h.ok (same ▸ hr), fun hr => h.fault (same ▸ hr),
    fun run more => by rw [eq, same, h.stable run]⟩

/-! ## One reader after another -/

/-- One reader after another is followed if each of the two is. -/
theorem Follows.bind {k : Graded → List Token → Except Failure (Graded × List Token)}
    (h : Follows p middle read ts)
    (after : ∀ {g rest constant}, read ts = .ok (g, rest) → (constant.isSome → NoneOpens rest) →
      Follows ⟨.behind constant, middle⟩ outer (k g) rest) :
    Follows p outer (fun us => read us >>= fun a => k a.1 a.2) ts where
  ok hr := by
    obtain ⟨⟨g, rest⟩, first, second⟩ := bind_eq_ok.1 hr
    obtain ⟨front, constant, rfl, run, spared⟩ := h.ok first
    obtain ⟨front', constant', rfl, run', spared'⟩ := (after first spared).ok second
    exact ⟨front ++ front', constant', by rw [List.append_assoc],
      by rw [run_append_of_ok run, run'], spared'⟩
  fault hr limit := by
    rcases bind_eq_error.1 hr with first | ⟨⟨g, rest⟩, first, second⟩
    · exact h.fault first limit
    · obtain ⟨front, constant, rfl, run, spared⟩ := h.ok first
      rw [diagnose_append_of_ok run]
      exact (after first spared).fault second limit
  stable refused more := by
    cases first : read ts with
    | error e => rw [h.stable refused, first]; rfl
    | ok a =>
      obtain ⟨g, rest⟩ := a
      obtain ⟨front, constant, rfl, run, spared⟩ := h.ok first
      have later := (after first spared).stable (by rwa [run_append_of_ok run] at refused) more
      rw [h.stable refused, first]
      exact later

/-- A tree that is too deep has no part in a run. -/
theorem Follows.checked {k : Graded → List Token → Except Failure (Graded × List Token)}
    (h : ∀ g', Follows p outer (k g') ts) :
    Follows p outer (fun us => checked g >>= fun g' => k g' us) ts := by
  unfold Reader.checked
  split
  · refine ⟨fun hr => (by cases hr), fun hr limit => ?_, fun _ _ => rfl⟩
    cases hr
    exact absurd rfl limit
  · exact h g

/-- Where an operand can begin, an operator in front only counts at the end. -/
theorem Follows.behind {r : Reader} (h : Follows ⟨.operand none, outer⟩ outer r.read ts)
    (operator : Token) :
    Follows ⟨.operand (some operator), outer⟩ outer (r.behind operator).read ts := by
  cases ts with
  | nil => exact .ended rfl rfl
  | cons t ts =>
    refine ⟨fun {g rest} hr => ?_, h.fault, h.stable⟩
    obtain ⟨front, constant, eq, run, spared⟩ := h.ok hr
    cases front with
    | nil => cases run
    | cons t' front => exact ⟨t' :: front, constant, eq, run, spared⟩

/-- A reader whose trees are put into others is followed as it is. -/
theorem Follows.wrap {r : Reader} (h : Follows p outer r.read ts) (node : Graded → Graded) :
    Follows p outer (r.wrap node).read ts :=
  h.bind (k := fun g us => Reader.checked (node g) >>= fun g' => .ok (g', us)) fun _ spared =>
    .checked (k := fun g' us => .ok (g', us)) fun _ => .pure spared

/-- A reader that a run follows from where an operand can begin, on all well-formed tokens. -/
def Followed (r : Reader) : Prop :=
  ∀ (outer : List Opening) {ts : List Token}, (∀ t ∈ ts, t.WellFormed) →
    Follows ⟨.operand none, outer⟩ outer r.read ts

/-! ## Chains -/

/-- The links of a chain are followed: each operator is a step, and its operand is followed. -/
theorem follows_links {tier : Tier} {operand : Reader} {room : Nat}
    (reads : Reads operand tier.operand room) (followed : Followed operand) :
    ∀ {ts : List Token} {chain : Graded} {constant : Option String}, (∀ t ∈ ts, t.WellFormed) →
      (constant.isSome → NoneOpens ts) →
      Follows ⟨.behind constant, outer⟩ outer (links (isOperator tier.symbols) operand chain) ts
  | [], chain, constant, _, _ => .done_nil (by rw [links])
  | t :: ts, chain, constant, wf, spared => by
      cases accepted : isOperator tier.symbols t with
      | false =>
        exact .done_cons (fun some => noneOpens_cons.1 (spared some)) fun us =>
          links_cons_of_not _ _ _ _ us accepted
      | true =>
        have wf' := (wellFormed_cons wf).2
        refine .step (.operator (kind_of_isOperator accepted)) ?_
          fun us => links_cons _ _ _ _ us accepted
        refine ((followed outer wf').behind t).bind fun {_ rest _} hr spared' =>
          .checked fun _ => ?_
        have shorter := (operand.behind t).shorter hr
        obtain ⟨d, rfl, -⟩ := (reads.behind t).sound wf' hr
        exact follows_links reads followed (wellFormed_append wf') spared'
  termination_by ts => ts.length
  decreasing_by
    simp only [List.length_cons]
    omega

/-- A chain is followed if its operands are. -/
theorem Followed.chain (tier : Tier) {operand : Reader} {room : Nat}
    (reads : Reads operand tier.operand room) (followed : Followed operand) :
    Followed (chain (isOperator tier.symbols) operand) := by
  intro outer ts wf
  refine (followed outer wf).bind fun hr spared => ?_
  obtain ⟨d, rfl, -⟩ := reads.sound wf hr
  exact follows_links reads followed (wellFormed_append wf) spared

/-! ## Levels -/

/-- The readers of a level are followed. -/
structure Level.Followed (level : Level) : Prop where
  sum : Grammar.Followed level.sum
  power : Grammar.Followed level.power
  unary : Grammar.Followed level.unary

variable {deeper : Level} {room : Nat}

/-- The token behind a sum is no operator. -/
theorem ends_of_stops {rest : List Token} (wf : t.WellFormed)
    (stops : Stops (.chain .sum) (t :: rest))
    (spared : constant.isSome → NoneOpens (t :: rest)) : Ends constant t := by
  refine ⟨fun isOperator => ?_, fun some => noneOpens_cons.1 (spared some)⟩
  rcases isSign_of_operators (wf.operator isOperator) with sum | term | caret
  · exact not_stops sum (by simp [Rule.behind]) stops
  · exact not_stops term (by simp [Rule.behind]) stops
  · exact not_stops caret (by simp [Rule.behind]) stops

/-- Inside a pair of parentheses. -/
theorem follows_parenthesized (reads : Level.Reads deeper room) (followed : Level.Followed deeper)
    (opening : Opening) (wf : ∀ t ∈ ts, t.WellFormed) :
    Follows ⟨.operand none, opening :: outer⟩ outer
      (deeper.sum.parenthesized opening.unclosed).read ts := by
  refine (followed.sum (opening :: outer) wf).bind
    (k := fun g rest => close opening.unclosed rest >>= fun rest => Pure.pure (g, rest))
    fun {tree rest _} hr spared => ?_
  obtain ⟨d, rfl, -, -, -, stops⟩ := reads.sum.sound wf hr
  have wf := wellFormed_append wf
  cases rest with
  | nil => exact .ended rfl rfl
  | cons t rest =>
    by_cases closes : t.kind = .closing
    · refine .step (.close closes) (.pure (g := tree) (by simp)) fun us => ?_
      simp only [close, closes, if_true]
      rfl
    · refine .refused (.unclosed (ends_of_stops (wellFormed_cons wf).1 stops spared) closes)
        fun us => ?_
      simp only [close, closes, if_false]
      rfl

/-- Behind a name. -/
theorem follows_named (reads : Level.Reads deeper room) (followed : Level.Followed deeper)
    {name : Token} (isName : name.kind = .identifier) {operator : Option Token}
    (wf : ∀ t ∈ ts, t.WellFormed) {read : List Token → Except Failure (Graded × List Token)}
    (eq : ∀ us, read (name :: us) = named deeper name.text us) :
    Follows ⟨.operand operator, outer⟩ outer read (name :: ts) := by
  cases isConstant : Names.isConstant name.text with
  | true =>
    refine .step (.constant isName isConstant) ?_ eq
    cases ts with
    | nil => exact .done_nil (named_of_isConstant isConstant noneOpens_nil)
    | cons t ts =>
      by_cases opens : t.kind = .opening
      · have notFunction : Names.isFunction name.text = false := by
          refine Bool.eq_false_iff.2 fun isFunction => ?_
          rw [Names.not_isConstant_of_isFunction isFunction] at isConstant
          cases isConstant
        exact .refused (.constantCalled opens) fun us => by
          simp [named, opens, notFunction, isConstant]
      · exact .done_cons (fun _ => opens) fun us =>
          named_of_isConstant isConstant (noneOpens_cons.2 opens)
  | false =>
    cases isFunction : Names.isFunction name.text with
    | true =>
      refine .step (.function isName isFunction) ?_ eq
      cases ts with
      | nil => exact .ended rfl (by simp [named, named.uncalled, isConstant, isFunction])
      | cons t ts =>
        by_cases opens : t.kind = .opening
        · have inside : Follows ⟨.operand none, .call name.text :: outer⟩ outer
              (deeper.sum.parenthesized (.unclosedCall name.text)).read ts :=
            follows_parenthesized reads followed (.call name.text) (wellFormed_cons wf).2
          exact .step (.call opens) (inside.wrap (.call name.text)) fun us => by
            simp only [named, opens, isFunction, if_true]
        · exact .refused (.uncalled opens) fun us => by
            simp [named, named.uncalled, opens, isConstant, isFunction]
    | false =>
      refine .refused (.unknown isName isConstant isFunction) fun us => ?_
      rw [eq]
      cases us with
      | nil => simp [named, named.uncalled, isConstant, isFunction]
      | cons t us => by_cases opens : t.kind = .opening <;>
          simp [named, named.uncalled, opens, isConstant, isFunction]

/-- A factor begins with no minus sign. -/
theorem follows_factor (reads : Level.Reads deeper room) (followed : Level.Followed deeper)
    (wf : ∀ t ∈ ts, t.WellFormed) (notMinus : ∀ t ∈ ts.head?, isOperator ['-'] t = false) :
    Follows ⟨.operand none, outer⟩ outer (factor deeper).read ts := by
  cases ts with
  | nil => exact .ended rfl rfl
  | cons t ts =>
    obtain ⟨wellFormed, wf⟩ := wellFormed_cons wf
    cases hk : t.kind with
    | number =>
      obtain ⟨x, reads⟩ := wellFormed.number hk
      exact .step (.number hk) (.pure (g := .literal x) (by simp)) fun us => by
        simp [factor, hk, reads]
    | opening =>
      exact .step (.group hk) (follows_parenthesized reads followed (.group t.position) wf)
        fun us => by simp [factor, hk, Opening.unclosed]
    | identifier =>
      exact follows_named reads followed hk wf fun us => by simp [factor, hk]
    | _ =>
      refine .refused (.unexpected ?_ ?_ ?_ (notMinus t rfl)) fun us => by simp [factor, hk]
      all_goals
        rw [hk]
        decide

/-- A signed operand is followed if the deeper level is. -/
theorem followed_unary (reads : Level.Reads deeper room) (followed : Level.Followed deeper) :
    Followed (unary deeper) := by
  intro outer ts wf
  cases ts with
  | nil => exact .ended rfl rfl
  | cons t ts =>
    cases isMinus : isOperator ['-'] t with
    | true =>
      exact .step (.minus isMinus) ((followed.unary outer (wellFormed_cons wf).2).wrap .negation)
        fun us => by simp [unary, isMinus]
    | false =>
      exact (follows_factor reads followed wf (by simpa using isMinus)).congr
        fun more => by simp [unary, isMinus]

/-- A power is followed if the deeper level is. -/
theorem followed_power (reads : Level.Reads deeper room) (followed : Level.Followed deeper) :
    Followed (power deeper) := by
  intro outer ts wf
  refine (followed_unary reads followed outer wf).bind (k := exponent deeper)
    fun {base rest _} hr spared => ?_
  obtain ⟨d, rfl, -⟩ := (reads_unary reads).sound wf hr
  have wf := wellFormed_append wf
  cases rest with
  | nil => exact .done_nil rfl
  | cons t rest =>
    cases isCaret : isOperator ['^'] t with
    | true =>
      have raised := (followed.power outer (wellFormed_cons wf).2).behind t
      exact .step (.operator (kind_of_isOperator isCaret)) (raised.wrap (.binary t.text base))
        fun us => by simp only [exponent, isCaret, if_true]
    | false =>
      exact .done_cons (g := base) (fun some => noneOpens_cons.1 (spared some)) fun us => by
        simp [exponent, isCaret]

/-- **A run follows the readers of every level.** -/
theorem followed_level : ∀ n : Nat, Level.Followed (level n)
  | 0 =>
    have exhausted : Followed exhausted := fun _ _ _ =>
      ⟨fun hr => (by cases hr), fun hr limit => (by cases hr; exact absurd rfl limit),
        fun _ _ => rfl⟩
    ⟨exhausted, exhausted, exhausted⟩
  | n + 1 =>
    have reads := reads_level n
    have power := followed_power reads (followed_level n)
    have term := Followed.chain .term (reads_power reads) power
    ⟨.chain .sum (.chain .term (reads_power reads)) term, power,
      followed_unary reads (followed_level n)⟩

end Grammar

/-! ## The parser -/

open Grammar Progress

variable {ts : List Token} {f : Fault}

/-- A run from the start follows the reader of the outermost level. -/
theorem follows_sum (wf : ∀ t ∈ ts, t.WellFormed) :
    Follows start [] (Reader.level (Reader.maxNesting + 1)).sum.read ts :=
  (followed_level _).sum [] wf

/-- **The fault that a parser raises is what is wrong with the tokens,** unless they nest too
deep. -/
theorem diagnose_of_parse (ne : ts ≠ []) (wf : ∀ t ∈ ts, t.WellFormed)
    (h : parse ts = .error (.fault f none)) (limit : f ≠ .tooDeep) :
    start.diagnose ts = some f := by
  have follows := follows_sum wf
  rw [parse_of_ne_nil ne] at h
  rcases bind_eq_error.1 h with hr | ⟨⟨tree, rest⟩, hr, h⟩
  · exact follows.fault hr limit
  · cases rest with
    | nil => cases h
    | cons t rest =>
      cases h
      obtain ⟨front, constant, rfl, run, spared⟩ := follows.ok hr
      obtain ⟨d, eq, -, -, -, stops⟩ := (reads_level _).sum.sound wf hr
      have wellFormed := wf t (by simp)
      rw [diagnose_append_of_ok run]
      exact (Refusal.trailing (ends_of_stops wellFormed stops spared)).diagnose_cons rest

/-- **What the parser raises is what is wrong with the tokens.** -/
theorem parse_eq_error_iff (wf : ∀ t ∈ ts, t.WellFormed) (ne : ts ≠ [])
    (limit : parse ts ≠ .error (.fault .tooDeep none)) :
    parse ts = .error (.fault f none) ↔ start.diagnose ts = some f := by
  have raised {f : Fault} (h : parse ts = .error (.fault f none)) : start.diagnose ts = some f :=
    diagnose_of_parse ne wf h fun deep => limit (deep ▸ h)
  refine ⟨raised, fun h => ?_⟩
  cases parsed : parse ts with
  | error e =>
    obtain ⟨f', rfl⟩ := isFault_of_parse wf parsed
    rw [Option.some.inj (h.symm.trans (raised parsed))]
  | ok tree =>
    cases tree with
    | none => exact absurd (eq_nil_of_parse_none parsed) ne
    | some g =>
      obtain ⟨d, rfl, -⟩ := exists_derivation_of_parse wf parsed
      obtain ⟨constant, run⟩ := IsSentence.run ⟨d, rfl⟩
      rw [diagnose, run] at h
      cases h

/-- **Once a token is refused, the parser's answer is settled.** -/
theorem parse_append (wf : ∀ t ∈ ts, t.WellFormed) (refused : start.run ts = .error f)
    (more : List Token) : parse (ts ++ more) = parse ts := by
  have ne : ts ≠ [] := by
    rintro rfl
    cases refused
  have follows := follows_sum wf
  rw [parse_of_ne_nil ne, parse_of_ne_nil (List.append_ne_nil_of_left_ne_nil ne more),
    follows.stable refused more]
  cases hr : (Reader.level (Reader.maxNesting + 1)).sum.read ts with
  | error e => rfl
  | ok a =>
    obtain ⟨tree, rest⟩ := a
    cases rest with
    | cons t rest => rfl
    | nil =>
      obtain ⟨front, constant, rfl, run, -⟩ := follows.ok hr
      rw [List.append_nil, run] at refused
      cases refused

end DeskCalculator
