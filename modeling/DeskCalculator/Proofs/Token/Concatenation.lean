/-
# Tokens of concatenated texts

Two neighbours that do not belong to one token are a seam: the tokens of a text are those in front
of it and those behind it (`scanFrom_append`).  The tokens behind a seam do not depend on what is in
front, except for their positions, and a fault among them does so only in the position that it names
(`alike_scanFrom`).  There is a seam on both sides of a symbol (`scanFrom_cons_symbol`), and one
behind a literal unless another digit or point follows (`scanFrom_literal_append`).  What becomes of
a blank or of a sign of print is no matter of its neighbours, so texts can be appended before they
are sanitized or after (`sanitize_append`).
-/

import DeskCalculator.Proofs.Token.Literal

namespace DeskCalculator

/-! ## Outcomes up to positions -/

/-- Failures that are the same, or faults of the same code. -/
inductive Failure.Alike : Failure → Failure → Prop where
  | refl (e : Failure) : Alike e e
  | fault {f g : Fault} (code : f.code = g.code) : Alike (.fault f none) (.fault g none)

variable {α β γ δ : Type} {P : α → β → Prop} {Q : γ → δ → Prop} {x : Except Failure α}
  {y : Except Failure β}

/-- Outcomes with results in a relation, or with failures that are alike. -/
inductive Alike (P : α → β → Prop) : Except Failure α → Except Failure β → Prop where
  | ok {a : α} {b : β} (h : P a b) : Alike P (.ok a) (.ok b)
  | error {e e' : Failure} (h : e.Alike e') : Alike P (.error e) (.error e')

/-- Outcomes that are alike go on to outcomes that are alike if alike results do. -/
theorem Alike.bind {f : α → Except Failure γ} {g : β → Except Failure δ} (h : Alike P x y)
    (next : ∀ {a b}, P a b → Alike Q (f a) (g b)) : Alike Q (x >>= f) (y >>= g) := by
  cases h with
  | ok h => exact next h
  | error h => exact .error h

/-- Faults of the same code are alike. -/
theorem Alike.raise {f g : Fault} (code : f.code = g.code) : Alike P f.raise g.raise :=
  .error (.fault code)

namespace Token

/-- Tokens that differ in their positions only. -/
structure Same (t t' : Token) : Prop where
  kind : t'.kind = t.kind
  text : t'.text = t.text

/-- A token is the same as itself. -/
theorem Same.refl (t : Token) : t.Same t := ⟨rfl, rfl⟩

/-! ## Seams -/

/-- The tokens of code points that begin at a position. -/
def scanFrom (start : Nat) (ps : List CodePoint) : Except Failure (List Token) :=
  (locate start (pieces ps)).mapM ofPiece

/-- Scanning a text is scanning it from its beginning. -/
theorem scan_eq_scanFrom (text : CodeText) : scan text = scanFrom 0 text.points := rfl

/-- Pieces behind others are located behind all of them. -/
theorem locate_append (start : Nat) (as bs : List (List CodePoint)) :
    locate start (as ++ bs) = locate start as ++ locate (start + as.flatten.length) bs := by
  induction as generalizing start with
  | nil => rfl
  | cons a as ih =>
    rw [List.cons_append, locate, locate, ih, List.cons_append, List.flatten_cons,
      List.length_append, Nat.add_assoc]

/-- **At a seam, the tokens are those in front of it and those behind it.** -/
theorem scanFrom_append {ps qs : List CodePoint}
    (seam : ∀ p ∈ ps.getLast?, ∀ q ∈ qs.head?, joins p q = false) (start : Nat) :
    scanFrom start (ps ++ qs) = scanFrom start ps >>= fun ts =>
      scanFrom (start + ps.length) qs >>= fun us => .ok (ts ++ us) := by
  have split : pieces (ps ++ qs) = pieces ps ++ pieces qs := List.splitBy_append seam
  have length : (pieces ps).flatten.length = ps.length :=
    congrArg List.length (List.flatten_splitBy _ ps)
  rw [scanFrom, split, locate_append, length, List.mapM_append]
  rfl

/-- A piece gives the same token anywhere, up to the position. -/
theorem alike_ofPiece (piece : List CodePoint) (i j : Nat) :
    Alike Same (ofPiece (i, piece)) (ofPiece (j, piece)) := by
  cases piece with
  | nil => exact .ok ⟨rfl, rfl⟩
  | cons p ps =>
    simp only [ofPiece]
    by_cases numeric : p.isIn isNumeric = true
    · by_cases points : 2 ≤ (p :: ps).count (.ofChar '.')
      · simp only [numeric, points, if_true]
        exact .raise rfl
      · by_cases lone : p :: ps = [.ofChar '.']
        · simp only [numeric, lone, if_true]
          exact .raise rfl
        · simp only [numeric, points, lone, if_true, if_false]
          exact .ok ⟨rfl, rfl⟩
    · by_cases letter : p.isIn isLetter = true
      · simp only [numeric, letter, if_true]
        exact .ok ⟨rfl, rfl⟩
      · simp only [numeric, letter]
        cases p.char?.bind symbol? with
        | some kind => exact .ok ⟨rfl, rfl⟩
        | none => exact .raise rfl

/-- **The tokens of code points are the same anywhere, up to their positions.** -/
theorem alike_scanFrom (ps : List CodePoint) (i j : Nat) :
    Alike (List.Forall₂ Same) (scanFrom i ps) (scanFrom j ps) := by
  unfold scanFrom
  induction pieces ps generalizing i j with
  | nil => exact .ok .nil
  | cons piece rest ih =>
    rw [locate, locate, List.mapM_cons, List.mapM_cons]
    exact (alike_ofPiece piece i j).bind fun same =>
      (ih (i + piece.length) (j + piece.length)).bind fun rest => .ok (.cons same rest)

/-! ## Symbols and literals -/

/-- A character that is a token by itself belongs to no number and to no name. -/
theorem notMem_of_symbol? {c : Char} {kind : Kind} (h : symbol? c = some kind) :
    isNumeric c = false ∧ isLetter c = false := by
  rcases symbol?_eq_some h with ⟨-, hc⟩ | ⟨-, rfl⟩ | ⟨-, rfl⟩ | ⟨-, rfl⟩
  · simp only [operators, List.mem_cons, List.not_mem_nil, or_false] at hc
    rcases hc with rfl | rfl | rfl | rfl | rfl | rfl <;> decide
  · decide
  · decide
  · decide

variable {c : Char} {kind : Kind}

/-- There is a seam behind a symbol and one in front of it. -/
theorem joins_symbol (h : symbol? c = some kind) (q : CodePoint) :
    joins (.ofChar c) q = false ∧ joins q (.ofChar c) = false := by
  obtain ⟨numeric, letter⟩ := notMem_of_symbol? h
  simp [joins, CodePoint.isIn_ofChar, numeric, letter]

/-- A symbol is one token, apart from what is behind it. -/
theorem scanFrom_cons_symbol (h : symbol? c = some kind) (qs : List CodePoint) (start : Nat) :
    scanFrom start (.ofChar c :: qs) = scanFrom (start + 1) qs >>= fun us =>
      .ok (⟨kind, String.singleton c, start⟩ :: us) := by
  obtain ⟨numeric, letter⟩ := notMem_of_symbol? h
  have text : (CodeText.mk [.ofChar c]).shown = String.singleton c := by
    have shown := CodeText.shown_map_ofChar [c]
    rw [List.map_singleton] at shown
    rw [shown]
    simp
  have token : ofPiece (start, [.ofChar c]) = .ok ⟨kind, String.singleton c, start⟩ := by
    simp [ofPiece, CodePoint.isIn_ofChar, numeric, letter, CodePoint.char?_ofChar, h, text]
  have piece : pieces [CodePoint.ofChar c] = [[.ofChar c]] := rfl
  rw [← List.singleton_append, scanFrom_append, scanFrom, piece, locate, locate, List.mapM_cons,
    token]
  · rfl
  · intro p hp q _
    obtain rfl : CodePoint.ofChar c = p := by simpa using hp
    exact (joins_symbol h q).1

/-- A literal is one number, apart from what is behind it. -/
theorem scanFrom_literal_append {cs : List Char} {qs : List CodePoint} (h : Decimal.IsLiteral cs)
    (seam : ∀ q ∈ qs.head?, q.isIn isNumeric = false) (start : Nat) :
    scanFrom start (cs.map CodePoint.ofChar ++ qs) = scanFrom (start + cs.length) qs >>= fun us =>
      .ok (⟨.number, .ofList cs, start⟩ :: us) := by
  rw [scanFrom_append, List.length_map, scanFrom, pieces_numeric h.numeric h.ne_nil, locate, locate,
    List.mapM_cons, ofPiece_literal h]
  · rfl
  · intro p hp q hq
    obtain ⟨c, hc, rfl⟩ := List.mem_map.1 (List.mem_of_getLast? hp)
    have letter := isLetter_of_isNumeric (h.numeric c hc)
    rw [joins, seam q hq, CodePoint.isIn_ofChar, CodePoint.isIn_ofChar, letter, Bool.and_false,
      Bool.false_and]
    rfl

/-- **A literal is scanned as one number**, behind an operator if it has a minus sign. -/
theorem scan_signed {cs : List Char} (h : Decimal.IsLiteral cs) (negative : Bool) :
    scan (.ofString (.ofList (Binary64.signText negative ++ cs))) = .ok
      (if negative then [⟨.operator, "-", 0⟩, ⟨.number, .ofList cs, 1⟩]
        else [⟨.number, .ofList cs, 0⟩]) := by
  have literal (start : Nat) : scanFrom start (cs.map CodePoint.ofChar) =
      .ok [⟨.number, .ofList cs, start⟩] := by
    have scanned : scanFrom start (cs.map CodePoint.ofChar ++ []) = _ :=
      scanFrom_literal_append h (by simp) start
    rwa [List.append_nil] at scanned
  rw [scan_eq_scanFrom, CodeText.ofString, String.toList_ofList, List.map_append]
  cases negative with
  | false => exact literal 0
  | true =>
    have minus : symbol? '-' = some .operator := rfl
    change scanFrom 0 (.ofChar '-' :: cs.map CodePoint.ofChar) = _
    rw [scanFrom_cons_symbol minus, literal]
    rfl

end Token

/-! ## Sanitized texts -/

/-- The code points of two texts stand one behind the other. -/
theorem CodeText.points_append (s t : CodeText) : (s ++ t).points = s.points ++ t.points := rfl

/-- Sanitizing goes character by character. -/
theorem sanitize_append (s t : CodeText) : sanitize (s ++ t) = sanitize s ++ sanitize t := by
  rw [sanitize, CodeText.points_append, List.filter_append, List.map_append]
  rfl

/-- A text that is not in the alphabet is refused. -/
theorem exists_validate_eq_raise {text : CodeText}
    (outside : ¬ ∀ p ∈ text.points, p.isIn Token.isInAlphabet = true) :
    ∃ q i, validate text = (Fault.invalidCharacter q i).raise := by
  rw [validate, Token.isAdmitted_eq_isInAlphabet]
  cases found : text.points.findIdx? (!·.isIn Token.isInAlphabet) with
  | none =>
    have inside := List.findIdx?_eq_none_iff.1 found
    exact absurd (fun p hp => by simpa using inside p hp) outside
  | some i =>
    obtain ⟨bound, -⟩ := List.findIdx?_eq_some_iff_getElem.1 found
    simp only [List.getElem?_eq_getElem bound]
    exact ⟨_, _, rfl⟩

/-- Texts with scans that are alike have tokens that are alike, if both are in the alphabet or
neither is. -/
theorem alike_tokensOf {P : List Token → List Token → Prop} {text text' : CodeText}
    (same : (∀ p ∈ (sanitize text).points, p.isIn Token.isInAlphabet = true) ↔
      ∀ p ∈ (sanitize text').points, p.isIn Token.isInAlphabet = true)
    (h : Alike P (Token.scan (sanitize text)) (Token.scan (sanitize text'))) :
    Alike P (tokensOf (some text)) (tokensOf (some text')) := by
  change Alike P (validate (sanitize text) >>= fun _ => Token.scan (sanitize text))
    (validate (sanitize text') >>= fun _ => Token.scan (sanitize text'))
  by_cases inside : ∀ p ∈ (sanitize text).points, p.isIn Token.isInAlphabet = true
  · rw [validate_eq_ok inside, validate_eq_ok (same.1 inside)]
    exact h
  · obtain ⟨_, _, refused⟩ := exists_validate_eq_raise inside
    obtain ⟨_, _, refused'⟩ := exists_validate_eq_raise (mt same.2 inside)
    rw [refused, refused']
    exact .raise rfl

end DeskCalculator
