/-
# A shown number in its place

A number that is shown can be put into a text where an operand can stand, with parentheses around
it or without: behind an operator or an opening parenthesis, or at the beginning, and in front of an
operator or a closing parenthesis, or at the end.  Neither its digits nor its minus sign join a
neighbour, so the tokens of the two texts are beside each other (`alike_tokensOf_parenthesized`),
and the parser does the same with both as far as there is room for the parentheses
(`agree_parseWithin`).  Apart from that the texts around the number can be any, and need not make an
expression with it.
-/

import DeskCalculator.Proofs.Grammar.Parenthesized

namespace DeskCalculator

/-! ## Outcomes -/

/-- The same value, or faults of the same kind and code. -/
inductive SameOutcome : Except Failure Binary64 → Except Failure Binary64 → Prop where
  | value (x : Binary64) : SameOutcome (.ok x) (.ok x)
  | fault {f g : Fault} (text text' : Option CodeText) (family : f.family = g.family)
      (code : f.code = g.code) : SameOutcome (.error (.fault f text)) (.error (.fault g text'))

/-- The kind of a fault goes with its code. -/
theorem Fault.family_eq_of_code_eq {f g : Fault} (h : f.code = g.code) : f.family = g.family := by
  have kinds_inj : ∀ a ∈ kinds, ∀ b ∈ kinds, a.2 = b.2 → a.1 = b.1 := by decide
  exact kinds_inj _ f.mem_kinds _ g.mem_kinds h

/-! ## Room -/

/-- The tree that was read, if no tokens are left behind it. -/
def asWhole (read : Graded × List Token) : Except Failure (Option Graded) :=
  read.2.head?.elim (.ok (some read.1)) fun t => (Fault.trailingInput t.text t.position).raise

/-- The tree of a token list, with room for a nesting. -/
def parseWithin (nesting : Nat) (ts : List Token) : Except Failure (Option Graded) :=
  if ts = [] then .ok none else (Reader.level (nesting + 1)).sum.read ts >>= asWhole

/-- The value of a text, with room for a nesting; a fault does not name the text yet. -/
def valueWithin (nesting : Nat) (text : Option CodeText) : Except Failure Binary64 :=
  tokensOf text >>= fun ts => parseWithin nesting ts >>= fun tree =>
    valueOf (tree.map Graded.tree)

/-- Evaluation with room for a nesting. -/
def evaluateWithin (nesting : Nat) (text : Option CodeText) : Except Failure Binary64 :=
  (valueWithin nesting text).mapError (.withEquation text)

/-- The parser has room for the greatest nesting. -/
theorem parseWithin_maxNesting (ts : List Token) :
    parseWithin Reader.maxNesting ts = parse ts := by
  cases ts with
  | nil => rfl
  | cons t ts =>
    rw [parseWithin, if_neg (List.cons_ne_nil t ts), parse]
    · refine congrArg _ (funext fun (tree, rest) => ?_)
      cases rest <;> rfl
    · exact List.cons_ne_nil t ts

/-- Within the limit of the parser, evaluating is what it always is. -/
theorem evaluateWithin_maxNesting (text : Option CodeText) :
    evaluateWithin Reader.maxNesting text = evaluate text := by
  unfold evaluateWithin valueWithin
  simp only [parseWithin_maxNesting]
  rfl

/-- Values that are alike are the same outcome: an evaluation ends with no failure but a fault. -/
theorem sameOutcome_of_alike {nesting : Nat} {text text' : Option CodeText}
    (h : Alike (· = ·) (valueWithin Reader.maxNesting text) (valueWithin nesting text')) :
    SameOutcome (evaluate text) (evaluateWithin nesting text') := by
  have ends := evaluate_cases text
  rw [← evaluateWithin_maxNesting] at ends ⊢
  unfold evaluateWithin at ends ⊢
  generalize valueWithin Reader.maxNesting text = x at h ends ⊢
  generalize valueWithin nesting text' = y at h ⊢
  cases h with
  | ok h =>
    subst h
    exact .value _
  | @error e _ h =>
    cases h with
    | fault code => exact .fault _ _ (Fault.family_eq_of_code_eq code) code
    | refl =>
      cases e with
      | fault f _ => exact .fault _ _ rfl rfl
      | _ => rcases ends with ⟨_, h, -⟩ | ⟨_, h⟩ <;> cases h

namespace Grammar

/-- **Tokens beside each other are parsed alike**, as far as there is room. -/
theorem agree_parseWithin (more : Bool) (nesting : Nat) {ts ts' : List Token}
    (beside : Beside true ts ts') :
    Agree more (· = ·) (parseWithin nesting ts) (parseWithin (extra more nesting) ts') := by
  have read := (simulates_level more (nesting + 1)).sum ts ts' beside
  rw [extra_succ] at read
  have whole := agree_bind (Q := (· = ·)) (f := asWhole) (g := asWhole) read ?_
  · unfold parseWithin
    cases beside with
    | nil => exact .ok rfl
    | _ => exact whole
  · intro tree rest rest' _ beside
    cases beside with
    | nil => exact .ok rfl
    | cons => exact .raise rfl

/-! ## Tokens of the two texts -/

variable {ts ts' : List Token}

/-- Tokens that differ in their positions only are beside each other. -/
theorem beside_of_forall₂ (h : List.Forall₂ Token.Same ts ts') (operand : Bool) :
    Beside operand ts ts' := by
  induction h generalizing operand with
  | nil => exact .nil
  | cons same _ ih => exact .cons same (ih _)

/-- The same tokens in front of what is beside each other anywhere. -/
theorem beside_append (us : List Token) (h : ∀ operand, Beside operand ts ts') (operand : Bool) :
    Beside operand (us ++ ts) (us ++ ts') := by
  induction us generalizing operand with
  | nil => exact h operand
  | cons u us ih => exact .cons (.refl u) (ih _)

end Grammar

namespace Token

open Grammar

/-- **The tokens of a shown number are beside those of one in parentheses**, with any tokens behind
them. -/
theorem alike_scanFrom_shown {cs : List Char} {x : Binary64} (h : Decimal.IsLiteral cs)
    (reads : Binary64.ofText? (.ofList cs) = some x) (negative : Bool) {qs : List CodePoint}
    (seam : ∀ q ∈ qs.head?, q.isIn isNumeric = false) (start : Nat) :
    Alike (Beside true)
      (scanFrom start ((Binary64.signText negative ++ cs).map CodePoint.ofChar ++ qs))
      (scanFrom start (.ofChar '(' :: ((Binary64.signText negative ++ cs).map CodePoint.ofChar ++
        .ofChar ')' :: qs))) := by
  have opening : symbol? '(' = some .opening := rfl
  have closing : symbol? ')' = some .closing := rfl
  have minus : symbol? '-' = some .operator := rfl
  have number (i : Nat) : scanFrom i (cs.map CodePoint.ofChar ++ .ofChar ')' :: qs) = _ :=
    scanFrom_literal_append h (by simp [isNumeric, Char.isDigit]) i
  have behind (i j : Nat) := alike_scanFrom qs i j
  cases negative with
  | false =>
    change Alike _ (scanFrom start (cs.map CodePoint.ofChar ++ qs))
      (scanFrom start (.ofChar '(' :: (cs.map CodePoint.ofChar ++ .ofChar ')' :: qs)))
    rw [scanFrom_literal_append h seam, scanFrom_cons_symbol opening, number,
      scanFrom_cons_symbol closing]
    simp only [bind_assoc]
    refine (behind _ _).bind fun same => ?_
    exact .ok (.number rfl rfl reads ⟨rfl, rfl⟩ rfl (beside_of_forall₂ same _))
  | true =>
    change Alike _ (scanFrom start (.ofChar '-' :: (cs.map CodePoint.ofChar ++ qs)))
      (scanFrom start (.ofChar '(' :: .ofChar '-' :: (cs.map CodePoint.ofChar ++
        .ofChar ')' :: qs)))
    rw [scanFrom_cons_symbol minus, scanFrom_literal_append h seam, scanFrom_cons_symbol opening,
      scanFrom_cons_symbol minus, number, scanFrom_cons_symbol closing]
    simp only [bind_assoc]
    refine (behind _ _).bind fun same => ?_
    exact .ok (.negative rfl ⟨rfl, '-', by simp, rfl⟩ ⟨rfl, '-', by simp, rfl⟩ rfl reads ⟨rfl, rfl⟩
      rfl (beside_of_forall₂ same _))

/-- The same code points in front, with nothing but an operator or an opening parenthesis at their
end. -/
theorem alike_scanFrom_append {ps qs qs' : List CodePoint}
    (front : ∀ p ∈ ps.getLast?, ∃ c ∈ ['+', '-', '*', '/', '^', '%', '('], p = .ofChar c)
    (h : ∀ start, Alike (Beside true) (scanFrom start qs) (scanFrom start qs')) :
    Alike (Beside true) (scanFrom 0 (ps ++ qs)) (scanFrom 0 (ps ++ qs')) := by
  rcases ps.eq_nil_or_concat' with rfl | ⟨ps, p, rfl⟩
  · exact h 0
  · obtain ⟨c, hc, rfl⟩ := front p (by simp)
    obtain ⟨kind, symbol, begins⟩ : ∃ kind, symbol? c = some kind ∧
        (kind == .operator || kind == .opening) = true := by
      simp only [List.mem_cons, List.not_mem_nil, or_false] at hc
      rcases hc with rfl | rfl | rfl | rfl | rfl | rfl | rfl <;> exact ⟨_, rfl, rfl⟩
    have split (qs : List CodePoint) : scanFrom 0 (ps ++ [.ofChar c] ++ qs) =
        scanFrom 0 ps >>= fun ts => scanFrom (0 + ps.length + 1) qs >>= fun us =>
          .ok (ts ++ ⟨kind, String.singleton c, (0 + ps.length : Nat)⟩ :: us) := by
      rw [List.append_assoc, List.singleton_append, scanFrom_append, scanFrom_cons_symbol symbol]
      · simp only [bind_assoc]
        rfl
      · intro p _ q hq
        obtain rfl : CodePoint.ofChar c = q := by simpa using hq
        exact (joins_symbol symbol p).2
    rw [split, split]
    cases scanFrom 0 ps with
    | error e => exact .error (.refl e)
    | ok ts =>
      refine (h _).bind fun beside => .ok (beside_append ts (fun operand => .cons (.refl _) ?_) _)
      rw [Token.begins, begins]
      exact beside

end Token

/-! ## Texts -/

/-- What is shown is a literal, behind a minus sign or not. -/
theorem exists_literal_of_format {v : Binary64} {r : String} (h : format v = .ok r) :
    ∃ (negative : Bool) (cs : List Char) (x : Binary64),
      r = .ofList (Binary64.signText negative ++ cs) ∧ Decimal.IsLiteral cs ∧
        Binary64.ofText? (.ofList cs) = some x := by
  cases v with
  | nan => cases h
  | infinite negative => cases h
  | finite negative m =>
    cases h
    unfold Binary64.plain
    by_cases hm : m.quanta = 0
    · rw [if_pos hm]
      exact ⟨false, ['0'], .zero false, rfl, isLiteral_zero, ofText?_zero⟩
    · rw [if_neg hm]
      exact ⟨negative, _, .finite false m, rfl, Decimal.isLiteral_positional _,
        ofText?_positional_shortest m⟩

variable {p s : CodeText}

/-- A text in the alphabet between others, sanitized. -/
theorem points_sanitize_around {number : CodeText}
    (inside : ∀ q ∈ number.points, q.isIn Token.isInAlphabet = true) :
    (sanitize (p ++ number ++ s)).points =
      (sanitize p).points ++ (number.points ++ (sanitize s).points) := by
  rw [sanitize_append, sanitize_append, sanitize_eq_self inside, CodeText.points_append,
    CodeText.points_append, List.append_assoc]

/-- The same text in parentheses. -/
theorem points_sanitize_around_parenthesized {number : CodeText}
    (inside : ∀ q ∈ number.points, q.isIn Token.isInAlphabet = true) :
    (sanitize (p ++ "(" ++ number ++ ")" ++ s)).points =
      (sanitize p).points ++
        .ofChar '(' :: (number.points ++ .ofChar ')' :: (sanitize s).points) := by
  have sanitized {c : Char} (hc : Token.isInAlphabet c = true) :
      sanitize ⟨[.ofChar c]⟩ = ⟨[.ofChar c]⟩ :=
    sanitize_eq_self fun q hq => by
      rw [List.mem_singleton.1 hq, CodePoint.isIn_ofChar, hc]
  have opening : sanitize (.ofString "(") = ⟨[.ofChar '(']⟩ := sanitized rfl
  have closing : sanitize (.ofString ")") = ⟨[.ofChar ')']⟩ := sanitized rfl
  simp only [sanitize_append, sanitize_eq_self inside, opening, closing, CodeText.points_append,
    List.append_assoc, List.cons_append, List.nil_append]

variable {r : String} {v : Binary64}

/-- **The tokens around a number that is shown are beside those around one in parentheses.** -/
theorem alike_tokensOf_parenthesized (shown : format v = .ok r)
    (front : ∀ q ∈ (sanitize p).points.getLast?,
      ∃ c ∈ ['+', '-', '*', '/', '^', '%', '('], q = .ofChar c)
    (back : ∀ q ∈ (sanitize s).points.head?,
      ∃ c ∈ ['+', '-', '*', '/', '^', '%', ')'], q = .ofChar c) :
    Alike (Grammar.Beside true) (tokensOf (some (p ++ r ++ s)))
      (tokensOf (some (p ++ "(" ++ r ++ ")" ++ s))) := by
  obtain ⟨negative, cs, x, rfl, literal, reads⟩ := exists_literal_of_format shown
  have inside := Token.isInAlphabet_of_mem_signed literal negative
  have plain := points_sanitize_around (p := p) (s := s) inside
  have wrapped := points_sanitize_around_parenthesized (p := p) (s := s) inside
  have seam : ∀ q ∈ (sanitize s).points.head?, q.isIn Token.isNumeric = false := by
    intro q hq
    obtain ⟨c, hc, rfl⟩ := back q hq
    rw [CodePoint.isIn_ofChar]
    simp only [List.mem_cons, List.not_mem_nil, or_false] at hc
    rcases hc with rfl | rfl | rfl | rfl | rfl | rfl | rfl <;> rfl
  refine alike_tokensOf ?_ ?_
  · have opening : (CodePoint.ofChar '(').isIn Token.isInAlphabet = true := by
      rw [CodePoint.isIn_ofChar]
      rfl
    have closing : (CodePoint.ofChar ')').isIn Token.isInAlphabet = true := by
      rw [CodePoint.isIn_ofChar]
      rfl
    rw [plain, wrapped]
    simp only [List.forall_mem_append, List.forall_mem_cons, opening, closing, true_and]
  · rw [Token.scan_eq_scanFrom, Token.scan_eq_scanFrom, plain, wrapped, CodeText.ofString,
      String.toList_ofList]
    exact Token.alike_scanFrom_append front fun start =>
      Token.alike_scanFrom_shown literal reads negative seam start

/-! ## Evaluation -/

/-- Texts with tokens beside each other have values that are alike, as far as there is room. -/
theorem agree_valueWithin (more : Bool) (nesting : Nat) {text text' : Option CodeText}
    (tokens : Alike (Grammar.Beside true) (tokensOf text) (tokensOf text')) :
    Agree more (· = ·) (valueWithin nesting text)
      (valueWithin (Grammar.extra more nesting) text') := by
  refine Agree.bind (.inl tokens) fun _ beside => ?_
  refine (Grammar.agree_parseWithin more nesting beside).bind fun _ eq => ?_
  rw [eq]
  exact .refl _

/-- **A number that is shown stands for itself wherever an operand can stand.**  With parentheses
around it or without, the text has the same value or a fault of the same kind and code.  The one
exception are parentheses that nest too deeply: then with room for one level more, the text with
them comes out as the one without. -/
theorem evaluate_shown_parenthesized (shown : format v = .ok r)
    (front : ∀ q ∈ (sanitize p).points.getLast?,
      ∃ c ∈ ['+', '-', '*', '/', '^', '%', '('], q = .ofChar c)
    (back : ∀ q ∈ (sanitize s).points.head?,
      ∃ c ∈ ['+', '-', '*', '/', '^', '%', ')'], q = .ofChar c) :
    SameOutcome (evaluate (some (p ++ r ++ s))) (evaluate (some (p ++ "(" ++ r ++ ")" ++ s))) ∨
    (evaluate (some (p ++ "(" ++ r ++ ")" ++ s)) =
        .error (.fault .tooDeep (some (p ++ "(" ++ r ++ ")" ++ s))) ∧
      SameOutcome (evaluate (some (p ++ r ++ s)))
        (evaluateWithin (Reader.maxNesting + 1) (some (p ++ "(" ++ r ++ ")" ++ s)))) := by
  have tokens := alike_tokensOf_parenthesized shown front back
  have agree (more : Bool) := agree_valueWithin more Reader.maxNesting tokens
  rcases (agree false).alike_or_tooDeep (agree true) with same | ⟨deep, same⟩
  · left
    rw [← evaluateWithin_maxNesting (some (p ++ "(" ++ r ++ ")" ++ s))]
    exact sameOutcome_of_alike same
  · right
    refine ⟨?_, sameOutcome_of_alike same⟩
    rw [← evaluateWithin_maxNesting]
    exact congrArg (Except.mapError _) deep

/-- Between two carets, where the power behind the number could take its minus sign. -/
theorem evaluate_between_carets_parenthesized :
    let front : CodeText := "2^"
    let back : CodeText := "^2"
    let plain : CodeText := front ++ "-5" ++ back
    let wrapped : CodeText := front ++ "(" ++ "-5" ++ ")" ++ back
    (∃ v, format v = .ok "-5") ∧
    (SameOutcome (evaluate (some plain)) (evaluate (some wrapped)) ∨
    (evaluate (some wrapped) = .error (.fault .tooDeep (some wrapped)) ∧
      SameOutcome (evaluate (some plain))
        (evaluateWithin (Reader.maxNesting + 1) (some wrapped)))) := by
  have shown : format (.finite true ⟨5 * 2 ^ 1074, by decide +kernel⟩) = .ok "-5" := by
    decide +kernel
  have front : (sanitize (.ofString "2^")).points.getLast? = some (.ofChar '^') := by
    decide +kernel
  have back : (sanitize (.ofString "^2")).points.head? = some (.ofChar '^') := by decide +kernel
  refine ⟨⟨_, shown⟩, evaluate_shown_parenthesized shown ?_ ?_⟩
  · rw [front]
    rintro q ⟨⟩
    exact ⟨'^', by decide, rfl⟩
  · rw [back]
    rintro q ⟨⟩
    exact ⟨'^', by decide, rfl⟩

/-- The exception: inside as many parentheses as there is room for, those around the number are too
deep. -/
example :
    let front : CodeText := String.ofList (List.replicate Reader.maxNesting '(')
    let back : CodeText := String.ofList (List.replicate Reader.maxNesting ')')
    let wrapped : CodeText := front ++ "(" ++ "5" ++ ")" ++ back
    (evaluate (some (front ++ "5" ++ back))).isOk = true ∧
      evaluate (some wrapped) = .error (.fault .tooDeep (some wrapped)) := by
  decide +kernel

end DeskCalculator
