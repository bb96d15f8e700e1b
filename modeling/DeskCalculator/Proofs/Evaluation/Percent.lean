/-
# The percent key

The percent key puts `*0.01` behind a text.  A factor belongs to the term that it stands behind, and
to all of it, as `*` groups from the left: so the last of the terms that the text adds and subtracts
is multiplied, and nothing else changes (`treeOf_appendPercent`).  The factor repairs no text
either.  Only a complete operand can have an operator behind it, and a number closes no parenthesis,
so what is in front of the factor is a sentence if the whole is (`IsSentence.of_append_percent`).
-/

import DeskCalculator.Calculation
import DeskCalculator.Keypad
import DeskCalculator.Proofs.Evaluation.RowValue
import DeskCalculator.Proofs.Grammar.Following
import DeskCalculator.Proofs.Token.Concatenation

namespace DeskCalculator

/-- The double that is closest to a hundredth. -/
def hundredth : Binary64 := .ofBits 0x3F847AE147AE147B

/-- The number in the factor reads as that double. -/
theorem ofText?_hundredth : Binary64.ofText? "0.01" = some hundredth := by decide +kernel

/-! ## The tokens of the factor -/

/-- The tokens of the factor, behind so many characters. -/
def percentTokens (start : Nat) : List Token :=
  [⟨.operator, "*", start⟩, ⟨.number, "0.01", (start + 1 : Nat)⟩]

/-- The factor is scanned into its two tokens wherever it stands. -/
theorem scanFrom_percent (start : Nat) :
    Token.scanFrom start ("*0.01" : CodeText).points = .ok (percentTokens start) := by
  have numeric : ∀ c ∈ ['0', '.', '0', '1'], Token.isNumeric c = true := by
    simp [Token.isNumeric, Char.isDigit]
  have literal : Decimal.IsLiteral ['0', '.', '0', '1'] :=
    ⟨numeric, by decide, by decide, by decide⟩
  have star : Token.symbol? '*' = some .operator := rfl
  have number : Token.scanFrom (start + 1) (['0', '.', '0', '1'].map CodePoint.ofChar ++ []) = _ :=
    Token.scanFrom_literal_append literal (by simp) (start + 1)
  rw [List.append_nil] at number
  change Token.scanFrom start (.ofChar '*' :: ['0', '.', '0', '1'].map CodePoint.ofChar) = _
  rw [Token.scanFrom_cons_symbol star, number]
  rfl

/-- What is in the alphabet is not refused behind any text. -/
theorem validate_append (s : CodeText) {text : CodeText}
    (inside : ∀ p ∈ text.points, p.isIn Token.isInAlphabet = true) :
    validate (s ++ text) = validate s := by
  have none : text.points.findIdx? (!·.isIn Token.isInAlphabet) = none :=
    List.findIdx?_eq_none_iff.2 fun p hp => by rw [inside p hp]; rfl
  rw [validate, validate, Token.isAdmitted_eq_isInAlphabet, CodeText.points_append,
    List.findIdx?_append, none, Option.map_none, Option.or_none]
  cases found : s.points.findIdx? (!·.isIn Token.isInAlphabet) with
  | none => rfl
  | some i =>
    obtain ⟨bound, -⟩ := List.findIdx?_eq_some_iff_getElem.1 found
    simp only [List.getElem?_append_left bound]

/-- **The factor adds its two tokens**, and where a text has no tokens, the fault stays the same. -/
theorem tokensOf_appendPercent (t : CodeText) :
    tokensOf (some (appendPercent t)) = tokensOf (some t) >>= fun ts =>
      .ok (ts ++ percentTokens (sanitize t).points.length) := by
  have star : Token.symbol? '*' = some .operator := rfl
  have inside : ∀ p ∈ ("*0.01" : CodeText).points, p.isIn Token.isInAlphabet = true := by
    have chars : ∀ c ∈ ['*', '0', '.', '0', '1'], Token.isInAlphabet c = true := by
      simp [Token.isInAlphabet, Token.isNumeric, Char.isDigit, Token.symbol?, Token.operators]
    refine List.forall_mem_map.2 fun c hc => ?_
    rw [CodePoint.isIn_ofChar, chars c hc]
  have seam : ∀ p ∈ (sanitize t).points.getLast?, ∀ q ∈ ("*0.01" : CodeText).points.head?,
      Token.joins p q = false := by
    rintro p - q hq
    cases hq
    exact (Token.joins_symbol star p).2
  change (validate (sanitize (t ++ ("*0.01" : CodeText))) >>= fun _ =>
    Token.scan (sanitize (t ++ ("*0.01" : CodeText)))) =
      (validate (sanitize t) >>= fun _ => Token.scan (sanitize t)) >>= _
  rw [sanitize_append, sanitize_eq_self inside, validate_append _ inside, bind_assoc]
  refine congrArg (validate (sanitize t) >>= ·) (funext fun _ => ?_)
  rw [Token.scan_eq_scanFrom, CodeText.points_append, Token.scanFrom_append seam, Nat.zero_add,
    scanFrom_percent]
  rfl

namespace Grammar

open Progress

/-- **The factor repairs nothing**: what it makes a sentence is one already. -/
theorem IsSentence.of_append_percent {ts : List Token} {start : Nat}
    (wf : ∀ t ∈ ts, t.WellFormed) (h : IsSentence (ts ++ percentTokens start)) :
    IsSentence ts := by
  obtain ⟨constant, run⟩ := h.run
  obtain ⟨p, run, last⟩ := exists_run_of_append run
  obtain ⟨q, step, last⟩ := bind_eq_ok.1 last
  obtain ⟨r, step', last⟩ := bind_eq_ok.1 last
  cases last
  cases advance_eq_ok.1 step with
  | operator =>
    cases advance_eq_ok.1 step' with
    | number => exact (isSentence_iff_run wf).2 ⟨_, run⟩
    | _ => contradiction
  | minus isMinus => exact absurd isMinus (by simp [Reader.isOperator, Text.occursIn])
  | _ => contradiction

/-! ## The last term -/

/-- The tree multiplied by a hundredth. -/
def percent (e : Expr) : Expr := .binary "*" e (.literal hundredth)

/-- The factor as a link of a term. -/
def percentLink (start : Nat) : Link .term (Derivation Tier.term.operand) where
  operator := ⟨.operator, "*", start⟩
  operand := .unary (.atom
    (.number ⟨.number, "0.01", (start + 1 : Nat)⟩ hundredth rfl ofText?_hundredth))
  isSign := ⟨rfl, '*', List.mem_cons_self, rfl⟩

/-- The term with the factor behind it. -/
def scaled (start : Nat) (d : Derivation (.chain .term)) : Derivation (.chain .term) :=
  Row.derivation ⟨d.row.first, d.row.links ++ [percentLink start]⟩

/-- The factor stands behind the tokens of the term. -/
theorem tokens_scaled (start : Nat) (d : Derivation (.chain .term)) :
    (scaled start d).tokens = d.tokens ++ percentTokens start :=
  d.tokens_extend (percentLink start)

/-- The factor multiplies the tree of the term. -/
theorem tree_scaled (start : Nat) (d : Derivation (.chain .term)) :
    (scaled start d).tree = percent d.tree :=
  d.tree_extend (percentLink start)

/-- The factor opens no parenthesis. -/
theorem nest_scaled_le {start : Nat} {d : Derivation (.chain .term)} {n : Nat} :
    (scaled start d).nest ≤ n ↔ d.nest ≤ n := by
  have nest : (scaled start d).nest = max d.nest 0 := d.nest_extend (percentLink start)
  rw [nest, Nat.max_zero]

/-- A sum or difference is that of its terms. -/
theorem Derivation.exists_terms (d : Derivation (.chain .sum)) :
    ∃ terms : Row .sum (Derivation (.chain .term)), Row.derivation terms = d :=
  ⟨d.row, d.derivation_row⟩

variable (row : Row .sum (Derivation (.chain .term))) (start : Nat)

/-- The sum or difference with the factor behind its last term. -/
def scaledRow : Derivation (.chain .sum) := Row.derivation (row.mapLast (scaled start))

/-- The factor stands behind the tokens of the sum or difference. -/
theorem tokens_scaledRow : (scaledRow row start).tokens =
    (Row.derivation row).tokens ++ percentTokens start :=
  calc (scaledRow row start).tokens
    _ = (row.mapLast (scaled start)).tokens Derivation.tokens := Row.tokens_derivation _
    _ = row.tokens Derivation.tokens ++ percentTokens start :=
      Row.tokens_mapLast (tokens_scaled start) row
    _ = _ := congrArg (· ++ _) (Row.tokens_derivation row).symm

/-- The factor multiplies the last term and leaves the others as they are. -/
theorem tree_scaledRow : (scaledRow row start).tree =
    ((row.map Derivation.tree).mapLast percent).tree :=
  (Row.tree_derivation _).trans (congrArg Row.tree (Row.map_mapLast (tree_scaled start) row))

/-- The factor opens no parenthesis in a sum or difference. -/
theorem nest_scaledRow_le {n : Nat} :
    (scaledRow row start).nest ≤ n ↔ (Row.derivation row).nest ≤ n := by
  have terms : (Row.derivation row).nest ≤ n ↔ ∀ d ∈ row.operands, d.nest ≤ n :=
    Row.nest_derivation_le
  rw [terms, ← Row.forall_mem_operands_mapLast fun _ => nest_scaled_le]
  exact Row.nest_derivation_le

/-- The factor makes no tree shallower. -/
theorem depth_le_scaledRow :
    (Row.derivation row).tree.depth ≤ (scaledRow row start).tree.depth := by
  have tree : (Row.derivation row).tree = (row.map Derivation.tree).tree := Row.tree_derivation row
  rw [tree, tree_scaledRow]
  exact Row.depth_tree_le_mapLast (fun e => Expr.depth_left_le ..) _

end Grammar
/-! ## The value of the last term -/

/-- A tree that has been multiplied by a hundredth has the value multiplied by it. -/
theorem Expr.value_percent (e : Expr) : (Grammar.percent e).value = e.value >>= fun x =>
    .ok (x * hundredth) := by
  rw [Grammar.percent, Expr.value_binary]
  rfl

namespace Grammar

/-- The terms have values, and the percent key multiplies the value of the last one. -/
theorem exists_values (terms : Row .sum (Derivation (.chain .term))) :
    ∃ values : Row .sum Binary64, terms.mapM (fun d => d.tree.value) = .ok values ∧
      (terms.map Derivation.tree).tree.value = values.total ∧
      ((terms.map Derivation.tree).mapLast percent).tree.value =
        (values.mapLast (· * hundredth)).total := by
  have sum : (Row.derivation terms).tree = (terms.map Derivation.tree).tree :=
    Row.tree_derivation terms
  obtain ⟨x, hx⟩ := Expr.exists_value (Row.derivation terms).isKnown
  rw [sum, Row.value_tree, Row.value_map] at hx
  obtain ⟨values, hv, -⟩ := bind_eq_ok.1 hx
  refine ⟨values, hv, ?_, ?_⟩
  · rw [Row.value_tree, Row.value_map, Row.value, hv]
    rfl
  · rw [Row.value_tree, Row.value, Row.mapM_mapLast Expr.value_percent, Row.mapM_map, hv]
    rfl

/-- What a term alone comes to is its value. -/
theorem total_of_single {terms : Row .sum (Derivation (.chain .term))} {values : Row .sum Binary64}
    (h : terms.mapM (fun d => d.tree.value) = .ok values) (single : terms.links = []) :
    ∃ x, values.total = .ok x ∧ (values.mapLast (· * hundredth)).total = .ok (x * hundredth) := by
  obtain ⟨first, links⟩ := terms
  obtain rfl : links = [] := single
  obtain ⟨x, -, h⟩ := bind_eq_ok.1 h
  cases h
  exact ⟨x, rfl, rfl⟩

end Grammar

/-! ## The tree of a text -/

open Grammar

/-- The tree of a text, if it has any tokens and they are accepted. -/
def treeOf (text : CodeText) : Except Failure (Option Graded) := tokensOf (some text) >>= parse

/-- A text has a tree if its tokens have a derivation within the limits. -/
theorem treeOf_eq_some_iff {t : CodeText} {g : Graded} :
    treeOf t = .ok (some g) ↔ ∃ d : Derivation (.chain .sum), tokensOf (some t) = .ok d.tokens ∧
      d.nest ≤ Reader.maxNesting ∧ d.tree.depth ≤ Reader.maxDepth ∧ d.tree = g.tree := by
  constructor
  · intro h
    obtain ⟨ts, tokens, h⟩ := bind_eq_ok.1 h
    obtain ⟨-, -, scanned⟩ := bind_eq_ok.1 tokens
    obtain ⟨d, rfl, within⟩ := exists_derivation_of_parse (Token.wellFormed_of_scan scanned) h
    exact ⟨d, tokens, within⟩
  · rintro ⟨d, tokens, nest, depth, tree⟩
    refine bind_eq_ok.2 ⟨_, tokens, ?_⟩
    rw [parse_tokens nest depth, Graded.eq_of_tree (g := .ofTree d.tree) tree]

/-- A text with a derivation has a tree, or it is too deep. -/
theorem exists_treeOf {t : CodeText} {d : Derivation (.chain .sum)}
    (tokens : tokensOf (some t) = .ok d.tokens) :
    (∃ g, treeOf t = .ok (some g)) ∨ treeOf t = Fault.tooDeep.raise := by
  obtain ⟨-, -, scanned⟩ := bind_eq_ok.1 tokens
  have wf := Token.wellFormed_of_scan scanned
  rw [treeOf, tokens]
  change (∃ g, parse d.tokens = _) ∨ parse d.tokens = _
  cases parsed : parse d.tokens with
  | ok tree =>
    cases tree with
    | none => exact absurd (eq_nil_of_parse_none parsed) d.tokens_ne_nil
    | some g => exact .inl ⟨g, rfl⟩
  | error e =>
    obtain ⟨f, rfl⟩ := isFault_of_parse wf parsed
    by_cases limit : f = .tooDeep
    · exact .inr (by rw [limit]; rfl)
    · -- Nothing else is wrong with a sentence.
      have wrong := diagnose_of_parse d.tokens_ne_nil wf parsed limit
      obtain ⟨constant, run⟩ := IsSentence.run ⟨d, rfl⟩
      rw [Progress.diagnose, run] at wrong
      cases wrong

/-- The tokens that the factor makes a sentence of have a derivation, and behind its last term it
has the factor. -/
theorem exists_terms_of_tokensOf {t : CodeText} {d' : Derivation (.chain .sum)}
    (tokens : tokensOf (some (appendPercent t)) = .ok d'.tokens) :
    ∃ terms : Row .sum (Derivation (.chain .term)),
      tokensOf (some t) = .ok (Row.derivation terms).tokens ∧
        scaledRow terms (sanitize t).points.length = d' := by
  rw [tokensOf_appendPercent] at tokens
  obtain ⟨ts, tokens, same⟩ := bind_eq_ok.1 tokens
  obtain ⟨-, -, scanned⟩ := bind_eq_ok.1 tokens
  have sentence : IsSentence (ts ++ percentTokens _) := ⟨d', (Except.ok.inj same).symm⟩
  obtain ⟨d, rfl⟩ := sentence.of_append_percent (Token.wellFormed_of_scan scanned)
  obtain ⟨terms, rfl⟩ := d.exists_terms
  refine ⟨terms, tokens, Derivation.eq_of_tokens ?_⟩
  rw [tokens_scaledRow, Except.ok.inj same]

/-- With the factor behind it, no text is without tokens. -/
theorem treeOf_appendPercent_ne_none (t : CodeText) : treeOf (appendPercent t) ≠ .ok none := by
  intro h
  obtain ⟨ts', tokens, parsed⟩ := bind_eq_ok.1 h
  obtain rfl := eq_nil_of_parse_none parsed
  rw [tokensOf_appendPercent] at tokens
  obtain ⟨ts, -, added⟩ := bind_eq_ok.1 tokens
  cases (List.append_eq_nil_iff.1 (Except.ok.inj added)).2

/-- **The percent key scales the last term.**  With `*0.01` behind it, a text always has tokens; it
has a tree only if it has one without, and then it does have one unless that is too deep.  The one
tree is that of the terms which the text adds and subtracts, the other one the same with the last of
them multiplied by a hundredth; and so are their values. -/
theorem treeOf_appendPercent (t : CodeText) :
    treeOf (appendPercent t) ≠ .ok none ∧
    (∀ g', treeOf (appendPercent t) = .ok (some g') → ∃ g, treeOf t = .ok (some g)) ∧
    (∀ g, treeOf t = .ok (some g) → (∃ g', treeOf (appendPercent t) = .ok (some g')) ∨
      treeOf (appendPercent t) = Fault.tooDeep.raise) ∧
    ∀ g g', treeOf t = .ok (some g) → treeOf (appendPercent t) = .ok (some g') →
      ∃ terms : Row .sum (Derivation (.chain .term)),
        tokensOf (some t) = .ok (Row.derivation terms).tokens ∧
        g.tree = (terms.map Derivation.tree).tree ∧
        g'.tree = ((terms.map Derivation.tree).mapLast percent).tree ∧
        ∃ values : Row .sum Binary64, terms.mapM (fun d => d.tree.value) = .ok values ∧
          g.tree.value = values.total ∧ g'.tree.value = (values.mapLast (· * hundredth)).total ∧
          (terms.links = [] → ∃ x, g.tree.value = .ok x ∧ g'.tree.value = .ok (x * hundredth)) := by
  refine ⟨treeOf_appendPercent_ne_none t, fun g' h' => ?_, fun g h => ?_, fun g g' h h' => ?_⟩
  · obtain ⟨d', tokens', nest, depth, -⟩ := treeOf_eq_some_iff.1 h'
    obtain ⟨terms, tokens, rfl⟩ := exists_terms_of_tokensOf tokens'
    exact ⟨.ofTree (Row.derivation terms).tree, treeOf_eq_some_iff.2
      ⟨_, tokens, (nest_scaledRow_le ..).1 nest, (depth_le_scaledRow ..).trans depth, rfl⟩⟩
  · obtain ⟨d, tokens, -⟩ := treeOf_eq_some_iff.1 h
    obtain ⟨terms, rfl⟩ := d.exists_terms
    refine exists_treeOf (d := scaledRow terms (sanitize t).points.length) ?_
    rw [tokensOf_appendPercent, tokens, tokens_scaledRow]
    rfl
  · obtain ⟨d, tokens, -, -, tree⟩ := treeOf_eq_some_iff.1 h
    obtain ⟨d', tokens', -, -, tree'⟩ := treeOf_eq_some_iff.1 h'
    obtain ⟨terms, same, rfl⟩ := exists_terms_of_tokensOf tokens'
    obtain rfl : Row.derivation terms = d :=
      Derivation.eq_of_tokens (Except.ok.inj (same.symm.trans tokens))
    have sum : g.tree = (terms.map Derivation.tree).tree :=
      tree.symm.trans (Row.tree_derivation terms)
    have sum' : g'.tree = ((terms.map Derivation.tree).mapLast percent).tree :=
      tree'.symm.trans (tree_scaledRow ..)
    obtain ⟨values, hv, total, total'⟩ := exists_values terms
    rw [sum, sum', total, total']
    exact ⟨terms, tokens, rfl, rfl, values, hv, rfl, rfl, total_of_single hv⟩

/-- Behind a difference with a power in it, only the power is multiplied, and all of it. -/
theorem treeOf_appendPercent_difference : ∃ g g' : Graded, treeOf "2 − 3^2" = .ok (some g) ∧
    treeOf (appendPercent "2 − 3^2") = .ok (some g') ∧
    g'.tree = .binary "-" (.literal (.ofNat 2)) (.binary "*"
      (.binary "^" (.literal (.ofNat 3)) (.literal (.ofNat 2))) (.literal hundredth)) := by
  have two : Binary64.ofText? "2" = some (.ofNat 2) := by decide +kernel
  have three : Binary64.ofText? "3" = some (.ofNat 3) := by decide +kernel
  let first : Derivation .power := .unary (.atom (.number ⟨.number, "2", 0⟩ _ rfl two))
  let square : Derivation .power :=
    .raised (.atom (.number ⟨.number, "3", 2⟩ _ rfl three)) ⟨.operator, "^", 3⟩
      (.unary (.atom (.number ⟨.number, "2", 4⟩ _ rfl two))) ⟨rfl, '^', by decide, rfl⟩
  let d : Derivation (.chain .sum) := .chain (.chain first .nil)
    (.cons ⟨.operator, "-", 1⟩ (.chain square .nil) .nil ⟨rfl, '-', by decide, rfl⟩)
  have tokens : tokensOf (some "2 − 3^2") = .ok d.tokens := by
    have scanned : tokensOf (some "2 − 3^2") = .ok [⟨.number, "2", 0⟩, ⟨.operator, "-", 1⟩,
        ⟨.number, "3", 2⟩, ⟨.operator, "^", 3⟩, ⟨.number, "2", 4⟩] := by decide +kernel
    exact scanned
  have accepted : treeOf "2 − 3^2" = .ok (some (.ofTree d.tree)) :=
    treeOf_eq_some_iff.2 ⟨d, tokens, show 1 ≤ 100 by decide, show 3 ≤ 400 by decide, rfl⟩
  have flat : treeOf (appendPercent "2 − 3^2") ≠ Fault.tooDeep.raise := by
    have : (treeOf (appendPercent "2 − 3^2")).map (fun _ => ()) = .ok () := by decide +kernel
    intro h
    rw [h] at this
    cases this
  obtain ⟨-, -, longer, last⟩ := treeOf_appendPercent "2 − 3^2"
  obtain ⟨g', accepted'⟩ := (longer _ accepted).resolve_right flat
  obtain ⟨terms, tokens', -, tree', -⟩ := last _ g' accepted accepted'
  obtain rfl : terms = d.row := by
    have same : Row.derivation terms = d :=
      Derivation.eq_of_tokens (Except.ok.inj (tokens'.symm.trans tokens))
    exact (Row.row_derivation terms).symm.trans (congrArg Derivation.row same)
  exact ⟨_, g', accepted, accepted', tree'⟩

end DeskCalculator
