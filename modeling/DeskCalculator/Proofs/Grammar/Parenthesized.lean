/-
# Parentheses around a number

Two token lists stand *beside* each other if they differ in positions only, except that at one place
where an operand can begin the second may have parentheses around a number, with its minus sign if
there is one (`Beside`).  The parser does the same with both, since a minus sign binds tighter than
every operator on either side of it: it makes the same tree of them or raises faults of the same
code.

Only the parentheses nest one level deeper.  So the second list is read with the same room as the
first, where it may be too deep on its own, or with one level more, where the first may be: `Agree`
excuses the one or the other.  The proof follows the readers from the parts to the whole, and the
number is the only place where they differ (`agree_negative`, `agree_number`).
-/

import DeskCalculator.Proofs.Evaluation.RoundTrip
import DeskCalculator.Proofs.Grammar.Progress
import DeskCalculator.Proofs.Token.Concatenation

namespace DeskCalculator

/-! ## Outcomes up to what is too deep -/

variable {α β γ δ : Type} {P : α → β → Prop} {Q : γ → δ → Prop} {more : Bool}
  {x : Except Failure α} {y : Except Failure β}

/-- A second outcome that is too deep; with more room there, a first one that is. -/
def Excused : Bool → Except Failure α → Except Failure β → Prop
  | false, _, y => y = Fault.tooDeep.raise
  | true, x, _ => x = Fault.tooDeep.raise

/-- Outcomes that are alike, but for one that is too deep. -/
def Agree (more : Bool) (P : α → β → Prop) (x : Except Failure α) (y : Except Failure β) : Prop :=
  Alike P x y ∨ Excused more x y

/-- Results that are alike agree. -/
theorem Agree.ok {a : α} {b : β} (h : P a b) : Agree more P (.ok a) (.ok b) := .inl (.ok h)

/-- Faults of the same code agree. -/
theorem Agree.raise {f g : Fault} (code : f.code = g.code) :
    Agree more P f.raise g.raise :=
  .inl (.error (.fault code))

/-- Outcomes that agree go on to outcomes that agree if alike results do. -/
theorem Agree.bind {f : α → Except Failure γ} {g : β → Except Failure δ} (h : Agree more P x y)
    (next : ∀ {a b}, x = .ok a → P a b → Agree more Q (f a) (g b)) :
    Agree more Q (x >>= f) (y >>= g) := by
  rcases h with h | h
  · cases h with
    | ok h => exact next rfl h
    | error h => exact .inl (.error h)
  · right
    cases more with
    | false =>
      rw [show y = Fault.tooDeep.raise from h]
      rfl
    | true =>
      rw [show x = Fault.tooDeep.raise from h]
      rfl

/-- An outcome that does not depend on the tokens agrees with itself. -/
theorem Agree.refl (x : Except Failure α) : Agree more (· = ·) x x := by
  cases x with
  | ok a => exact .ok rfl
  | error e => exact .inl (.error (.refl e))

/-- What agrees with the same room and with more is alike with the one or the other: if both excuse
it, both outcomes are too deep. -/
theorem Agree.alike_or_tooDeep {y' : Except Failure β} (same : Agree false P x y)
    (larger : Agree true P x y') : Alike P x y ∨ (y = Fault.tooDeep.raise ∧ Alike P x y') := by
  rcases same with alike | (deep : y = _)
  · exact .inl alike
  · rcases larger with alike | (deep' : x = _)
    · exact .inr ⟨deep, alike⟩
    · rw [deep, deep']
      exact .inl (.raise rfl)

/-! ## Tokens beside each other -/

/-- The position of a token does not matter for being an operator. -/
theorem Token.Same.isOperator {t t' : Token} (h : t.Same t') (symbols : List Char) :
    Reader.isOperator symbols t' = Reader.isOperator symbols t := by
  rw [Reader.isOperator, Reader.isOperator, h.kind, h.text]

/-- A token behind which an operand can begin. -/
def Token.begins (t : Token) : Bool := t.kind == .operator || t.kind == .opening

namespace Grammar

open Reader Progress

/-- Token lists that differ in positions and in parentheses around a number; the parameter says
whether an operand can begin in front of them. -/
inductive Beside : Bool → List Token → List Token → Prop where
  | nil {operand : Bool} : Beside operand [] []
  | cons {operand : Bool} {t t' : Token} {ts ts' : List Token} (same : t.Same t')
      (h : Beside t.begins ts ts') : Beside operand (t :: ts) (t' :: ts')
  | number {opening number number' closing : Token} {ts ts' : List Token} {x : Binary64}
      (opens : opening.kind = .opening) (isNumber : number.kind = .number)
      (reads : Binary64.ofText? number.text = some x) (same : number.Same number')
      (closes : closing.kind = .closing) (h : Beside false ts ts') :
      Beside true (number :: ts) (opening :: number' :: closing :: ts')
  | negative {opening sign sign' number number' closing : Token} {ts ts' : List Token}
      {x : Binary64} (opens : opening.kind = .opening) (isMinus : sign.IsSign ['-'])
      (isMinus' : sign'.IsSign ['-']) (isNumber : number.kind = .number)
      (reads : Binary64.ofText? number.text = some x) (same : number.Same number')
      (closes : closing.kind = .closing) (h : Beside false ts ts') :
      Beside true (sign :: number :: ts) (opening :: sign' :: number' :: closing :: ts')

variable {ts ts' : List Token} {t t' : Token}

/-- What readers leave: the same tree, and tokens beside each other. -/
def Leave (a b : Graded × List Token) : Prop := a.1 = b.1 ∧ Beside false a.2 b.2

/-- Steps that agree on one tree and on tokens beside each other agree on what readers leave. -/
theorem agree_bind {x y : Except Failure (Graded × List Token)}
    {f g : Graded × List Token → Except Failure α} {Q : α → α → Prop} (h : Agree more Leave x y)
    (next : ∀ {tree rest rest'}, x = .ok (tree, rest) → Beside false rest rest' →
      Agree more Q (f (tree, rest)) (g (tree, rest'))) : Agree more Q (x >>= f) (y >>= g) := by
  refine h.bind fun {a b} read leave => ?_
  obtain ⟨tree, rest⟩ := a
  obtain ⟨tree', rest'⟩ := b
  obtain ⟨rfl, beside⟩ : tree = tree' ∧ Beside false rest rest' := leave
  exact next read beside

/-- Readers that agree where an operand can begin. -/
def Simulates (more : Bool) (r r' : Reader) : Prop :=
  ∀ ts ts' : List Token, Beside true ts ts' → Agree more Leave (r.read ts) (r'.read ts')

/-- Levels whose readers agree. -/
structure Level.Simulates (more : Bool) (l l' : Level) : Prop where
  sum : Grammar.Simulates more l.sum l'.sum
  power : Grammar.Simulates more l.power l'.power
  unary : Grammar.Simulates more l.unary l'.unary

/-! ## Readers of the same tokens -/

variable {r r' : Reader} {l l' : Level}

/-- Readers that agree do so behind an operator. -/
theorem Simulates.behind (h : Simulates more r r') (t t' : Token) :
    Simulates more (r.behind t) (r'.behind t') := by
  intro ts ts' beside
  cases ts with
  | nil =>
    cases beside
    exact .raise (by simp [Fault.code])
  | cons u us =>
    cases ts' with
    | nil => cases beside
    | cons u' us' => exact h _ _ beside

/-- The same node on top of trees that agree. -/
theorem agree_wrap {node node' : Graded → Graded} (same : node = node')
    (h : Agree more Leave (r.read ts) (r'.read ts')) :
    Agree more Leave ((r.wrap node).read ts) ((r'.wrap node').read ts') := by
  subst same
  exact agree_bind h fun _ beside => (Agree.refl _).bind fun _ eq => .ok ⟨eq, beside⟩

/-- Readers that agree do so between parentheses, if the faults have the same code. -/
theorem agree_parenthesized {unclosed unclosed' : Fault} (code : unclosed.code = unclosed'.code)
    (h : Simulates more r r') (beside : Beside true ts ts') :
    Agree more Leave ((r.parenthesized unclosed).read ts)
      ((r'.parenthesized unclosed').read ts') := by
  refine agree_bind (h _ _ beside) fun _ beside => ?_
  refine Agree.bind (P := Beside false) ?_ fun _ beside => .ok ⟨rfl, beside⟩
  cases beside with
  | nil => exact .raise code
  | @cons _ t t' ts ts' same beside =>
    by_cases closes : t.kind = .closing
    · rw [Token.begins, closes] at beside
      simp only [close, same.kind, closes, if_true]
      exact .ok beside
    · simp only [close, same.kind, closes, if_false]
      exact .raise (by simp [Fault.code])

/-- Readers that agree do so along a chain, by induction over the tokens. -/
theorem agree_links {tier : Tier} (h : Simulates more r r') :
    ∀ {ts ts' : List Token} {chain : Graded}, Beside false ts ts' →
      Agree more Leave (links (isOperator tier.symbols) r chain ts)
        (links (isOperator tier.symbols) r' chain ts')
  | [], _, chain, beside => by
      cases beside
      rw [links, links]
      exact .ok ⟨rfl, .nil⟩
  | t :: ts, _, chain, beside => by
      cases beside with
      | @cons _ _ t' _ ts' same beside =>
        cases accepted : isOperator tier.symbols t with
        | false =>
          rw [links_cons_of_not _ _ _ _ _ accepted,
            links_cons_of_not _ _ _ _ _ ((same.isOperator _).trans accepted)]
          exact .ok ⟨rfl, .cons same beside⟩
        | true =>
          rw [links_cons _ _ _ _ _ accepted,
            links_cons _ _ _ _ _ ((same.isOperator _).trans accepted)]
          rw [Token.begins, kind_of_isOperator accepted] at beside
          refine agree_bind (h.behind t t' _ _ beside) fun {right _ _} read beside => ?_
          have shorter := (r.behind t).shorter read
          rw [same.text]
          refine (Agree.refl (checked (.binary t.text chain right))).bind fun {c d} _ eq => ?_
          subst eq
          exact agree_links h beside
  termination_by ts => ts.length
  decreasing_by
    simp only [List.length_cons]
    omega

/-- Chains agree if their operands do. -/
theorem Simulates.chain (tier : Tier) (h : Simulates more r r') :
    Simulates more (chain (isOperator tier.symbols) r) (chain (isOperator tier.symbols) r') := by
  intro ts ts' beside
  exact agree_bind (h _ _ beside) fun _ beside => agree_links h beside

/-- Names are read alike if the deeper levels agree. -/
theorem agree_named (h : Level.Simulates more l l') (name : String) (beside : Beside false ts ts') :
    Agree more Leave (named l name ts) (named l' name ts') := by
  have uncalled : Agree more Leave (named.uncalled name ts) (named.uncalled name ts') := by
    unfold named.uncalled
    split
    · exact .ok ⟨rfl, beside⟩
    · split
      · exact .raise rfl
      · exact .raise rfl
  cases beside with
  | nil => exact uncalled
  | @cons _ t t' ts ts' same beside =>
    by_cases opens : t.kind = .opening
    · simp only [named, same.kind, opens, if_true]
      split
      · rw [Token.begins, opens] at beside
        exact agree_wrap rfl (agree_parenthesized rfl h.sum beside)
      · split
        · exact .raise rfl
        · exact .raise rfl
    · simp only [named, same.kind, opens, if_false]
      exact uncalled

/-- Factors agree on tokens that are the same up to their positions. -/
theorem agree_factor (h : Level.Simulates more l l') (same : t.Same t')
    (beside : Beside t.begins ts ts') :
    Agree more Leave ((factor l).read (t :: ts)) ((factor l').read (t' :: ts')) := by
  simp only [factor, same.kind, same.text]
  rw [Token.begins] at beside
  cases hk : t.kind with
  | number =>
    rw [hk] at beside
    simp only []
    cases Binary64.ofText? t.text with
    | some x => exact .ok ⟨rfl, beside⟩
    | none => exact .inl (.error (.refl _))
  | opening =>
    rw [hk] at beside
    exact agree_parenthesized rfl h.sum beside
  | identifier =>
    rw [hk] at beside
    exact agree_named h t.text beside
  | _ => exact .raise rfl

/-- The exponent behind a base. -/
theorem agree_exponent (h : Level.Simulates more l l') (base : Graded)
    (beside : Beside false ts ts') :
    Agree more Leave (exponent l base ts) (exponent l' base ts') := by
  cases beside with
  | nil => exact .ok ⟨rfl, .nil⟩
  | @cons _ t t' ts ts' same beside =>
    simp only [exponent, same.isOperator, same.text]
    split
    · rename_i isCaret
      rw [Token.begins, kind_of_isOperator isCaret] at beside
      exact agree_wrap rfl (h.power.behind t t' _ _ beside)
    · exact .ok ⟨rfl, .cons same beside⟩

/-! ## The number -/

/-- One level more, if there is to be more room. -/
def extra : Bool → Nat → Nat
  | false, n => n
  | true, n => n + 1

/-- The level that is one more stays one more on the next level. -/
theorem extra_succ (more : Bool) (n : Nat) : extra more (n + 1) = extra more n + 1 := by
  cases more <;> rfl

/-- A number reads as itself, at any level. -/
theorem unary_number (l : Level) {number : Token} {x : Binary64} (isNumber : number.kind = .number)
    (reads : Binary64.ofText? number.text = some x) (ts : List Token) :
    (unary l).read (number :: ts) = .ok (.literal x, ts) := by
  have notMinus : isOperator ['-'] number = false :=
    isOperator_of_kind_ne (by rw [isNumber]; decide) _
  simp only [unary, notMinus, factor, isNumber, reads, Bool.false_eq_true, if_false]

/-- What fails as the first operand of a sum fails as a sum. -/
theorem sum_eq_error {l : Level} {e : Failure} (h : (unary l).read ts = .error e) :
    (sum l).read ts = .error e := by
  have power : (power l).read ts = .error e := bind_eq_error.2 (.inl h)
  have term : (term l).read ts = .error e := bind_eq_error.2 (.inl power)
  exact bind_eq_error.2 (.inl term)

/-- An opening parenthesis begins a group. -/
theorem unary_opening (l : Level) {opening : Token} (opens : opening.kind = .opening)
    (ts : List Token) : (unary l).read (opening :: ts) =
      (l.sum.parenthesized (.unclosedGroup opening.position)).read ts := by
  have notMinus : isOperator ['-'] opening = false :=
    isOperator_of_kind_ne (by rw [opens]; decide) _
  simp only [unary, notMinus, factor, opens, Bool.false_eq_true, if_false]

/-- A minus sign begins a negation. -/
theorem unary_minus (l : Level) {sign : Token} (isMinus : sign.IsSign ['-']) (ts : List Token) :
    (unary l).read (sign :: ts) = (l.unary.wrap .negation).read ts := by
  simp only [unary, isMinus.isOperator, if_true]

/-- Parentheses read as what is in them, if there is room for it. -/
theorem unary_parenthesized {n : Nat} {d : Derivation (.chain .sum)} {opening closing : Token}
    (opens : opening.kind = .opening) (closes : closing.kind = .closing) (nest : d.nest < n)
    (depth : d.tree.depth ≤ maxDepth) (ts : List Token) :
    (unary (level n)).read (opening :: (d.tokens ++ closing :: ts)) =
      .ok (.ofTree d.tree, ts) := by
  have read := complete_parenthesized (reads_level n) (.unclosedGroup opening.position) ts nest
    depth closes
  rw [List.append_assoc, List.singleton_append] at read
  rw [unary_opening _ opens, read]

/-- A number and the number in parentheses. -/
theorem agree_number (more : Bool) (n : Nat) {opening number number' closing : Token}
    {x : Binary64} (opens : opening.kind = .opening) (isNumber : number.kind = .number)
    (reads : Binary64.ofText? number.text = some x) (same : number.Same number')
    (closes : closing.kind = .closing) (beside : Beside false ts ts') :
    Agree more Leave ((unary (level n)).read (number :: ts))
      ((unary (level (extra more n))).read (opening :: number' :: closing :: ts')) := by
  cases room : extra more n with
  | zero =>
    cases more with
    | false => exact .inr (by rw [unary_opening _ opens]; rfl)
    | true => cases room
  | succ m =>
    let d : Derivation (.chain .sum) :=
      .ofNumber number' x (same.kind.trans isNumber) (by rw [same.text, reads])
    have read := unary_parenthesized (d := d) opens closes (Nat.zero_lt_succ m) one_le_maxDepth ts'
    rw [unary_number _ isNumber reads]
    exact read ▸ .ok ⟨rfl, beside⟩

/-- A number and the number in parentheses, with a minus sign in front. -/
theorem agree_negative (more : Bool) (n : Nat) {opening sign sign' number number' closing : Token}
    {x : Binary64} (opens : opening.kind = .opening) (isMinus : sign.IsSign ['-'])
    (isMinus' : sign'.IsSign ['-']) (isNumber : number.kind = .number)
    (reads : Binary64.ofText? number.text = some x) (same : number.Same number')
    (closes : closing.kind = .closing) (beside : Beside false ts ts') :
    Agree more Leave ((unary (level n)).read (sign :: number :: ts))
      ((unary (level (extra more n))).read (opening :: sign' :: number' :: closing :: ts')) := by
  let d : Derivation (.chain .sum) :=
    .ofNegative sign' number' x isMinus' (same.kind.trans isNumber) (by rw [same.text, reads])
  have shallow : d.tree.depth ≤ maxDepth := show 2 ≤ maxDepth by decide
  -- With two levels of room or more, both are read; with less, one of them is too deep.
  have read {m : Nat} (nest : d.nest < m) := unary_parenthesized (d := d) opens closes nest
    shallow ts'
  have negation {m : Nat} : (unary (level (m + 1))).read (sign :: number :: ts) =
      .ok (.negation (.literal x), ts) := by
    rw [unary_minus _ isMinus]
    exact wrap_eq_ok.2 ⟨_, unary_number _ isNumber reads ts, rfl, show 2 ≤ maxDepth by decide⟩
  cases n with
  | zero =>
    cases more with
    | false => exact .inr (by rw [extra, unary_opening _ opens]; rfl)
    | true => exact .inr (by rw [unary_minus _ isMinus]; rfl)
  | succ n =>
    cases more with
    | true =>
      rw [negation]
      exact read (m := n + 2) (show 1 < n + 2 by omega) ▸ .ok ⟨rfl, beside⟩
    | false =>
      cases n with
      | zero =>
        refine .inr ?_
        rw [extra, unary_opening _ opens]
        exact bind_eq_error.2 (.inl (sum_eq_error (by rw [unary_minus _ isMinus']; rfl)))
      | succ n =>
        rw [negation]
        exact read (m := n + 2) (show 1 < n + 2 by omega) ▸ .ok ⟨rfl, beside⟩

/-! ## Levels -/

/-- Signed operands agree, the parenthesized number taking the level that is one more. -/
theorem simulates_unary (more : Bool) (n : Nat)
    (h : Level.Simulates more (level n) (level (extra more n))) :
    Simulates more (unary (level n)) (unary (level (extra more n))) := by
  intro ts ts' beside
  cases beside with
  | nil => exact .raise rfl
  | number opens isNumber reads same closes beside =>
    exact agree_number more n opens isNumber reads same closes beside
  | negative opens isMinus isMinus' isNumber reads same closes beside =>
    exact agree_negative more n opens isMinus isMinus' isNumber reads same closes beside
  | @cons _ t t' ts ts' same beside =>
    have factor := agree_factor h same beside
    simp only [unary, same.isOperator]
    split
    · rename_i isMinus
      rw [Token.begins, kind_of_isOperator isMinus] at beside
      exact agree_wrap rfl (h.unary _ _ beside)
    · exact factor

/-- Powers agree if their bases do. -/
theorem Simulates.power (h : Level.Simulates more l l')
    (base : Simulates more (unary l) (unary l')) : Simulates more (power l) (power l') := by
  intro ts ts' beside
  exact agree_bind (base _ _ beside) fun _ beside => agree_exponent h _ beside

/-- **The readers of a level agree with those of the same level, and with those of the next.** -/
theorem simulates_level (more : Bool) : ∀ n, Level.Simulates more (level n) (level (extra more n))
  | 0 =>
    have exhausted (l : Level → Reader) (h : l (level 0) = exhausted) :
        Simulates more (l (level 0)) (l (level (extra more 0))) := by
      intro ts ts' _
      cases more with
      | false => rw [extra, h]; exact .raise rfl
      | true => exact .inr (by rw [h]; rfl)
    ⟨exhausted Level.sum rfl, exhausted Level.power rfl, exhausted Level.unary rfl⟩
  | n + 1 => by
    have h := simulates_level more n
    have unary := simulates_unary more n h
    have power := Simulates.power h unary
    rw [extra_succ]
    exact ⟨.chain .sum (.chain .term power), power, unary⟩

end Grammar
end DeskCalculator
