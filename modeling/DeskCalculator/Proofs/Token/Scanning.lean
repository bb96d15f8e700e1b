/-
# What scanning and validating do

A text is cut into tokens if and only if all of it is in the alphabet and each maximal run of digits
and points shows a number, with a digit in it and one point at most.  The tokens are then the text
cut into its maximal runs of digits and points, its maximal runs of letters, and single signs
(`ConsistsOf`).  Otherwise the scan ends with a fault at the leftmost place that something is wrong
with (`Offends`); validating looks for the code points outside the alphabet only, so it finds the
same fault unless a malformed number begins further left (`scan_and_validate`).

The scanner looks at one piece after another, and what it makes of a piece is said once
(`Reading`): by the first code point the piece is a run of numeric characters, a run of letters, or
that code point alone.
-/

import DeskCalculator.Proofs.Token.Runs

namespace DeskCalculator
namespace Token

/-! ## The alphabet -/

/-- The characters that an expression can have, one by one. -/
def alphabet : List Char :=
  "0123456789.ABCDEFGHIJKLMNOPQRSTUVWXYZabcdefghijklmnopqrstuvwxyz+-*/^%(),".toList

/-- The classes of the scanner make up the alphabet. -/
theorem isInAlphabet_iff_mem_alphabet {c : Char} : isInAlphabet c = true ↔ c ∈ alphabet := by
  constructor
  · intro h
    have low : c.toNat < 0x7B := (toNat_of_isInAlphabet h).2
    have table : ∀ n < 0x7B, isInAlphabet (Char.ofNat n) = true → Char.ofNat n ∈ alphabet := by
      decide +kernel
    have found := table c.toNat low
    rw [Char.ofNat_toNat] at found
    exact found h
  · have table : alphabet.all isInAlphabet = true := by decide +kernel
    exact List.all_eq_true.1 table c

/-- A code point that an expression can have. -/
def InAlphabet (p : CodePoint) : Prop := ∃ c ∈ alphabet, p = .ofChar c

/-- The class of the alphabet holds the characters of its list. -/
theorem isIn_isInAlphabet_iff {p : CodePoint} : p.isIn isInAlphabet = true ↔ InAlphabet p := by
  rw [CodePoint.isIn_iff]
  constructor
  · rintro ⟨c, rfl, hc⟩
    exact ⟨c, isInAlphabet_iff_mem_alphabet.1 hc, rfl⟩
  · rintro ⟨c, hc, rfl⟩
    exact ⟨c, rfl, isInAlphabet_iff_mem_alphabet.2 hc⟩

/-- What is outside the alphabet is in none of its classes. -/
theorem isIn_eq_false_of_outside {p : CodePoint} (outside : ¬ InAlphabet p) :
    p.isIn isNumeric = false ∧ p.isIn isLetter = false ∧ p.char?.bind symbol? = none := by
  have inside {accepts : Char → Bool} (sub : ∀ c, accepts c = true → isInAlphabet c = true) :
      p.isIn accepts = false := by
    refine Bool.eq_false_iff.2 fun h => ?_
    obtain ⟨c, rfl, hc⟩ := CodePoint.isIn_iff.1 h
    refine outside (isIn_isInAlphabet_iff.1 ?_)
    rw [CodePoint.isIn_ofChar]
    exact sub c hc
  refine ⟨inside fun c hc => ?_, inside fun c hc => ?_, Option.eq_none_iff_forall_ne_some.2 ?_⟩
  · simp [isInAlphabet, hc]
  · simp [isInAlphabet, hc]
  · intro kind hk
    obtain ⟨c, hp, hc⟩ := Option.bind_eq_some_iff.1 hk
    obtain rfl := CodePoint.ofChar_of_char? hp
    refine outside (isIn_isInAlphabet_iff.1 ?_)
    simp [isInAlphabet, hc]

/-! ## What becomes of a piece -/

/-- What the scanner makes of a piece that begins behind `start` code points. -/
inductive Reading (start : Nat) : List CodePoint → Except Failure Token → Prop where
  | number {run : List CodePoint} (numeric : ∀ p ∈ run, p.isIn isNumeric = true)
      (points : run.count (.ofChar '.') < 2) (digits : run ≠ [.ofChar '.']) :
      Reading start run (.ok ⟨.number, (CodeText.mk run).shown, start⟩)
  | repeatedPoint {run : List CodePoint} (numeric : ∀ p ∈ run, p.isIn isNumeric = true)
      (points : 2 ≤ run.count (.ofChar '.')) :
      Reading start run (.error (.fault (.repeatedPoint start) none))
  | lonePoint : Reading start [.ofChar '.'] (.error (.fault (.lonePoint start) none))
  | name {run : List CodePoint} (letters : ∀ p ∈ run, p.isIn isLetter = true) :
      Reading start run (.ok ⟨.identifier, (CodeText.mk run).shown, start⟩)
  | sign {c : Char} {kind : Kind} (h : symbol? c = some kind) :
      Reading start [.ofChar c] (.ok ⟨kind, String.singleton c, start⟩)
  | outside {p : CodePoint} (h : ¬ InAlphabet p) :
      Reading start [p] (.error (.fault (.invalidCharacter p start) none))

/-- **A piece is read by its first code point.** -/
theorem reading_ofPiece {piece : List CodePoint} (nonempty : piece ≠ [])
    (chain : piece.IsChain (joins · ·)) (start : Nat) :
    Reading start piece (ofPiece (start, piece)) := by
  cases piece with
  | nil => exact absurd rfl nonempty
  | cons p ps =>
    simp only [ofPiece]
    split
    · rename_i hn
      have numeric := isClass_isNumeric.forall_of_isChain chain hn
      split
      · rename_i points
        exact .repeatedPoint numeric points
      · split
        · rename_i lone
          rw [lone]
          exact .lonePoint
        · rename_i points digits
          exact .number numeric (by omega) digits
    · split
      · rename_i hl
        exact .name (isClass_isLetter.forall_of_isChain chain hl)
      · rename_i hn hl
        obtain rfl := eq_nil_of_isChain chain (Bool.eq_false_iff.2 hn) (Bool.eq_false_iff.2 hl)
        split
        · rename_i kind hk
          obtain ⟨c, hp, hc⟩ := Option.bind_eq_some_iff.1 hk
          obtain rfl := CodePoint.ofChar_of_char? hp
          have text : (CodeText.mk [.ofChar c]).shown = String.singleton c :=
            CodeText.shown_map_ofChar [c]
          rw [text]
          exact .sign hc
        · rename_i hs
          refine .outside fun inside => ?_
          obtain ⟨c, rfl, hc⟩ := CodePoint.isIn_iff.1 (isIn_isInAlphabet_iff.2 inside)
          rw [CodePoint.isIn_ofChar] at hn hl
          rw [CodePoint.char?_ofChar, Option.bind_some] at hs
          simp [isInAlphabet, hn, hl, hs] at hc

/-- What the scanner makes of the pieces of a text. -/
theorem reading_of_mem_locate {ps piece : List CodePoint} {start : Nat}
    (h : (start, piece) ∈ locate 0 (pieces ps)) : Reading start piece (ofPiece (start, piece)) :=
  have mem := mem_of_mem_locate h
  reading_ofPiece (List.ne_nil_of_mem_splitBy mem) (List.isChain_of_mem_splitBy mem) start

/-! ## The tokens of a text -/

/-- A token that is a part of a text, beginning behind `start` code points of it. -/
def Covers (t : Token) (start : Nat) (part : List CodePoint) : Prop :=
  t.position = start ∧ t.text.toList.map .ofChar = part

/-- The texts of tokens, one behind the other. -/
def written (ts : List Token) : List Char := ts.flatMap (·.text.toList)

/-- The text of the first token stands in front of those of the others. -/
theorem written_cons (t : Token) (ts : List Token) :
    written (t :: ts) = t.text.toList ++ written ts := List.flatMap_cons

/-- A text cut into tokens: nothing is lost, the positions are those in the text, the numbers are
the maximal runs of digits and points, the names the maximal runs of letters, and any other token is
one character of its kind. -/
structure ConsistsOf (ps : List CodePoint) (ts : List Token) : Prop where
  text : (written ts).map .ofChar = ps
  position : ∀ (before : List Token) (t : Token) (after : List Token),
    ts = before ++ t :: after → t.position = (written before).length
  number : ∀ start run, MaximalRun isNumeric ps start run ↔
    ∃ t ∈ ts, t.kind = .number ∧ t.Covers start run
  name : ∀ start run, MaximalRun isLetter ps start run ↔
    ∃ t ∈ ts, t.kind = .identifier ∧ t.Covers start run
  sign : ∀ t ∈ ts, t.kind ≠ .number → t.kind ≠ .identifier →
    ∃ c, symbol? c = some t.kind ∧ t.text = String.singleton c

/-- The text of a run of characters is the run. -/
theorem map_ofChar_shown {accepts : Char → Bool} {run : List CodePoint}
    (h : ∀ p ∈ run, p.isIn accepts = true) :
    (CodeText.mk run).shown.toList.map .ofChar = run := by
  obtain ⟨cs, rfl, -⟩ := CodePoint.exists_map_ofChar h
  rw [CodeText.shown_map_ofChar, String.toList_ofList]

/-- **A token covers the piece that it is made of.** -/
theorem Reading.covers {start : Nat} {piece : List CodePoint} {t : Token}
    (h : Reading start piece (.ok t)) : t.Covers start piece := by
  cases h with
  | number numeric => exact ⟨rfl, map_ofChar_shown numeric⟩
  | name letters => exact ⟨rfl, map_ofChar_shown letters⟩
  | sign => exact ⟨rfl, by rw [String.toList_singleton, List.map_singleton]⟩

/-- A number begins with a digit or a point, a name with a letter. -/
theorem Reading.kind_iff {start : Nat} {piece : List CodePoint} {t : Token}
    (h : Reading start piece (.ok t)) (nonempty : piece ≠ []) :
    (t.kind = .number ↔ ∃ p ∈ piece.head?, p.isIn isNumeric = true) ∧
      (t.kind = .identifier ↔ ∃ p ∈ piece.head?, p.isIn isLetter = true) := by
  have first : piece.head nonempty ∈ piece.head? := List.head?_eq_some_head nonempty
  have only {accepts : Char → Bool} (refused : (piece.head nonempty).isIn accepts = false) :
      ¬ ∃ p ∈ piece.head?, p.isIn accepts = true := by
    rintro ⟨p, hp, accepted⟩
    obtain rfl := Option.mem_unique first hp
    rw [refused] at accepted
    cases accepted
  have mem := List.head_mem nonempty
  cases h with
  | number numeric =>
    have hn := numeric _ mem
    exact ⟨iff_of_true rfl ⟨_, first, hn⟩,
      iff_of_false (by rintro ⟨⟩) (only (isIn_isLetter_of_isNumeric hn))⟩
  | name letters =>
    have hl := letters _ mem
    refine ⟨iff_of_false (by rintro ⟨⟩) (only (Bool.eq_false_iff.2 fun hn => ?_)),
      iff_of_true rfl ⟨_, first, hl⟩⟩
    rw [isIn_isLetter_of_isNumeric hn] at hl
    cases hl
  | sign hk =>
    obtain ⟨notNumber, notName, -⟩ := kind_of_symbol? hk
    obtain ⟨numeric, letter⟩ := notMem_of_symbol? hk
    refine ⟨iff_of_false notNumber (only ?_), iff_of_false notName (only ?_)⟩
    · rw [List.head_cons, CodePoint.isIn_ofChar, numeric]
    · rw [List.head_cons, CodePoint.isIn_ofChar, letter]

/-- Tokens that cover pieces one by one have the text of all of them. -/
theorem map_ofChar_written {base : Nat} {ps : List (List CodePoint)} {ts : List Token}
    (h : List.Forall₂ (fun located t => Covers t located.1 located.2) (locate base ps) ts) :
    (written ts).map .ofChar = ps.flatten := by
  induction ps generalizing base ts with
  | nil =>
    rw [locate, List.forall₂_nil_left_iff] at h
    subst h
    rfl
  | cons piece rest ih =>
    rw [locate, List.forall₂_cons_left_iff] at h
    obtain ⟨t, ts, covers, more, rfl⟩ := h
    rw [written_cons, List.map_append, covers.2, ih more, List.flatten_cons]

/-- Tokens that cover pieces one by one stand where the texts of those in front of them end. -/
theorem position_of_covers {base : Nat} {ps : List (List CodePoint)} {before : List Token}
    {t : Token} {after : List Token}
    (h : List.Forall₂ (fun located t => Covers t located.1 located.2) (locate base ps)
      (before ++ t :: after)) :
    t.position = (base + (written before).length : Nat) := by
  induction before generalizing base ps with
  | nil =>
    cases ps with
    | nil => cases h
    | cons piece rest =>
      obtain ⟨covers, -⟩ := List.forall₂_cons.1 h
      exact covers.1
  | cons first before ih =>
    cases ps with
    | nil => cases h
    | cons piece rest =>
      obtain ⟨covers, more⟩ := List.forall₂_cons.1 h
      have length : first.text.toList.length = piece.length := by
        rw [← List.length_map, covers.2]
      rw [ih more, written_cons, List.length_append, length, Nat.add_assoc]

/-- The tokens of a text are what is read piece by piece. -/
theorem forall₂_reading_of_scan {text : CodeText} {ts : List Token} (h : scan text = .ok ts) :
    List.Forall₂ (fun located t => Reading located.1 located.2 (.ok t))
      (locate 0 (pieces text.points)) ts := by
  have readings := List.forall₂_and_left _ _ |>.2
    ⟨fun located (hl : located ∈ locate 0 (pieces text.points)) => hl, mapM_eq_ok_iff.1 h⟩
  refine readings.imp fun located t ⟨mem, read⟩ => ?_
  have reading := reading_of_mem_locate mem
  rwa [read] at reading

/-- The maximal runs of a class are the tokens of a kind, if the pieces that begin with one of the
class are read as that kind. -/
theorem maximalRun_iff_of_scan {text : CodeText} {ts : List Token} (h : scan text = .ok ts)
    {accepts : Char → Bool} (isClass : IsClass accepts) {kind : Kind}
    (kinds : ∀ {start : Nat} {piece : List CodePoint} {t : Token},
      Reading start piece (.ok t) → piece ≠ [] →
      (t.kind = kind ↔ ∃ p ∈ piece.head?, p.isIn accepts = true))
    (start : Nat) (run : List CodePoint) :
    MaximalRun accepts text.points start run ↔ ∃ t ∈ ts, t.kind = kind ∧ t.Covers start run := by
  have nonempty {start : Nat} {piece : List CodePoint}
      (mem : (start, piece) ∈ locate 0 (pieces text.points)) : piece ≠ [] :=
    List.ne_nil_of_mem_splitBy (mem_of_mem_locate mem)
  rw [isClass.maximalRun_iff]
  constructor
  · rintro ⟨mem, first⟩
    obtain ⟨t, ht, read⟩ := exists_mem_of_mapM h _ mem
    have reading := reading_of_mem_locate mem
    rw [read] at reading
    exact ⟨t, ht, (kinds reading (nonempty mem)).2 first, reading.covers⟩
  · rintro ⟨t, ht, isKind, place, covered⟩
    obtain ⟨⟨start', piece⟩, mem, read⟩ := exists_of_mem_mapM h t ht
    have reading := reading_of_mem_locate mem
    rw [read] at reading
    obtain ⟨place', covered'⟩ := reading.covers
    obtain rfl : start' = start := Int.ofNat_inj.1 (place'.symm.trans place)
    obtain rfl : piece = run := covered'.symm.trans covered
    exact ⟨mem, (kinds reading (nonempty mem)).1 isKind⟩

/-- **A text that is scanned consists of its tokens.** -/
theorem consistsOf_of_scan {text : CodeText} {ts : List Token} (h : scan text = .ok ts) :
    ConsistsOf text.points ts := by
  have covers := (forall₂_reading_of_scan h).imp fun _ _ reading => reading.covers
  refine ⟨?_, fun before t after split => ?_,
    maximalRun_iff_of_scan h isClass_isNumeric fun reading ne => (reading.kind_iff ne).1,
    maximalRun_iff_of_scan h isClass_isLetter fun reading ne => (reading.kind_iff ne).2, ?_⟩
  · exact (map_ofChar_written covers).trans (List.flatten_splitBy joins text.points)
  · rw [split] at covers
    rw [position_of_covers covers, Nat.zero_add]
  · intro t ht notNumber notName
    obtain ⟨⟨start, piece⟩, mem, read⟩ := exists_of_mem_mapM h t ht
    have reading := reading_of_mem_locate mem
    rw [read] at reading
    cases reading with
    | number => exact absurd rfl notNumber
    | name => exact absurd rfl notName
    | @sign c kind hk => exact ⟨c, hk, rfl⟩

/-! ## What is wrong with a text -/

/-- A maximal run of digits and points that is no number, and the fault that tells so. -/
inductive Malformed (ps : List CodePoint) (start : Nat) : Fault → Prop where
  /-- It has two points or more. -/
  | repeatedPoint {run : List CodePoint} (run_max : MaximalRun isNumeric ps start run)
      (points : 2 ≤ run.count (.ofChar '.')) : Malformed ps start (.repeatedPoint start)
  /-- It is a point alone. -/
  | lonePoint (run_max : MaximalRun isNumeric ps start [.ofChar '.']) :
      Malformed ps start (.lonePoint start)

/-- What is wrong with a text behind `start` code points of it. -/
inductive Offends (ps : List CodePoint) (start : Nat) : Fault → Prop where
  | malformed {f : Fault} (h : Malformed ps start f) : Offends ps start f
  | outside {p : CodePoint} (place : ps[start]? = some p) (h : ¬ InAlphabet p) :
      Offends ps start (.invalidCharacter p start)

/-- **What is wrong with a text is what its pieces are refused for.** -/
theorem offends_iff {ps : List CodePoint} {start : Nat} {f : Fault} :
    Offends ps start f ↔ ∃ piece, (start, piece) ∈ locate 0 (pieces ps) ∧
      ofPiece (start, piece) = .error (.fault f none) := by
  constructor
  · intro h
    cases h with
    | malformed h =>
      cases h with
      | @repeatedPoint run run_max points =>
        obtain ⟨mem, p, hp, numeric⟩ := isClass_isNumeric.maximalRun_iff.1 run_max
        refine ⟨run, mem, ?_⟩
        cases run with
        | nil => cases hp
        | cons first rest =>
          cases hp
          simp only [ofPiece, numeric, if_true, if_pos points]
          rfl
      | lonePoint run_max =>
        exact ⟨_, (isClass_isNumeric.maximalRun_iff.1 run_max).1, rfl⟩
    | @outside p place outside =>
      obtain ⟨numeric, letter, symbol⟩ := isIn_eq_false_of_outside outside
      refine ⟨[p], mem_locate_of_alone place fun q => ?_, ?_⟩
      · simp [joins, numeric, letter]
      · simp only [ofPiece, numeric, letter, symbol]
        rfl
  · rintro ⟨piece, mem, read⟩
    have reading := reading_of_mem_locate mem
    rw [read] at reading
    cases reading with
    | repeatedPoint numeric points =>
      have nonempty : piece ≠ [] := List.ne_nil_of_mem_splitBy (mem_of_mem_locate mem)
      refine .malformed (.repeatedPoint (isClass_isNumeric.maximalRun_iff.2
        ⟨mem, piece.head nonempty, List.head?_eq_some_head nonempty,
          numeric _ (List.head_mem nonempty)⟩) points)
    | lonePoint =>
      refine .malformed (.lonePoint (isClass_isNumeric.maximalRun_iff.2
        ⟨mem, .ofChar '.', rfl, ?_⟩))
      rw [CodePoint.isIn_ofChar]
      rfl
    | @outside p h =>
      obtain ⟨before, after, rfl, rfl, -⟩ := mem_locate_pieces_iff.1 mem
      refine .outside ?_ h
      simp

/-- A place has one thing wrong with it at most. -/
theorem Offends.unique {ps : List CodePoint} {start : Nat} {f g : Fault} (hf : Offends ps start f)
    (hg : Offends ps start g) : f = g := by
  obtain ⟨piece, mem, read⟩ := offends_iff.1 hf
  obtain ⟨piece', mem', read'⟩ := offends_iff.1 hg
  obtain rfl := eq_of_mem_locate (List.nil_notMem_splitBy joins ps) mem mem'
  have eq := read.symm.trans read'
  cases eq
  rfl

/-- **The code of what is wrong at a place tells what stands there.** -/
theorem Offends.code_iff {ps : List CodePoint} {start : Nat} {f : Fault} (h : Offends ps start f) :
    (f.code = "3008" ↔ ∃ run, MaximalRun isNumeric ps start run ∧ 2 ≤ run.count (.ofChar '.')) ∧
    (f.code = "3031" ↔ MaximalRun isNumeric ps start [.ofChar '.']) ∧
    (f.code = "3030" ↔ ∃ p, ps[start]? = some p ∧ ¬ InAlphabet p) := by
  have told : f.code = "3008" ∧
        (∃ run, MaximalRun isNumeric ps start run ∧ 2 ≤ run.count (.ofChar '.')) ∨
      f.code = "3031" ∧ MaximalRun isNumeric ps start [.ofChar '.'] ∨
      f.code = "3030" ∧ ∃ p, ps[start]? = some p ∧ ¬ InAlphabet p := by
    cases h with
    | malformed h =>
      cases h with
      | repeatedPoint run_max points => exact .inl ⟨rfl, _, run_max, points⟩
      | lonePoint run_max => exact .inr (.inl ⟨rfl, run_max⟩)
    | outside place outside => exact .inr (.inr ⟨rfl, _, place, outside⟩)
  refine ⟨⟨fun code => ?_, ?_⟩, ⟨fun code => ?_, fun run_max => ?_⟩, ⟨fun code => ?_, ?_⟩⟩
  · simpa [code] using told
  · rintro ⟨run, run_max, points⟩
    rw [h.unique (.malformed (.repeatedPoint run_max points)), Fault.code]
  · simpa [code] using told
  · rw [h.unique (.malformed (.lonePoint run_max)), Fault.code]
  · simpa [code] using told
  · rintro ⟨p, place, outside⟩
    rw [h.unique (.outside place outside), Fault.code]

/-- **The message of what is wrong at a place names the place**, and the code point that stands
there if it is outside the alphabet. -/
theorem Offends.message_eq {ps : List CodePoint} {start : Nat} {f : Fault}
    (h : Offends ps start f) :
    (f.code = "3008" →
      f.message = "More than one '.' in the number at position " ++ toString start) ∧
    (f.code = "3031" → f.message = "Number without digits at position " ++ toString start) ∧
    (f.code = "3030" → ∃ p, ps[start]? = some p ∧
      f.message =
        "Invalid character " ++ (CodeText.mk [p]).quoted ++ " at position " ++ toString start) := by
  cases h with
  | malformed h =>
    cases h with
    | repeatedPoint => exact ⟨fun _ => rfl, by simp [Fault.code], by simp [Fault.code]⟩
    | lonePoint => exact ⟨by simp [Fault.code], fun _ => rfl, by simp [Fault.code]⟩
  | outside place =>
    exact ⟨by simp [Fault.code], by simp [Fault.code], fun _ => ⟨_, place, rfl⟩⟩

/-- A text is scanned if and only if nothing is wrong with it. -/
theorem exists_scan_iff {text : CodeText} :
    (∃ ts, scan text = .ok ts) ↔ ∀ start f, ¬ Offends text.points start f := by
  constructor
  · rintro ⟨ts, h⟩ start f offends
    obtain ⟨piece, mem, read⟩ := offends_iff.1 offends
    obtain ⟨t, -, ok⟩ := exists_mem_of_mapM h _ mem
    rw [ok] at read
    cases read
  · intro fine
    cases h : scan text with
    | ok ts => exact ⟨ts, rfl⟩
    | error failure =>
      obtain ⟨⟨start, piece⟩, mem, read⟩ := exists_of_mapM_error h
      obtain ⟨f, rfl⟩ := isFault_of_ofPiece read
      exact absurd (offends_iff.2 ⟨piece, mem, read⟩) (fine start f)

/-- **A scan fails with what is wrong furthest to the left.** -/
theorem scan_eq_error_iff {text : CodeText} {failure : Failure} :
    scan text = .error failure ↔ ∃ start f, Offends text.points start f ∧
      (∀ later g, Offends text.points later g → start ≤ later) ∧ failure = .fault f none := by
  have leftmost {failure : Failure} (h : scan text = .error failure) :
      ∃ start f, Offends text.points start f ∧
        (∀ later g, Offends text.points later g → start ≤ later) ∧ failure = .fault f none := by
    obtain ⟨before, ⟨start, piece⟩, after, cut, passed, read⟩ := mapM_eq_error_iff.1 h
    obtain ⟨f, rfl⟩ := isFault_of_ofPiece read
    have mem : (start, piece) ∈ locate 0 (pieces text.points) := by
      rw [cut]
      exact List.mem_append_right _ List.mem_cons_self
    refine ⟨start, f, offends_iff.2 ⟨piece, mem, read⟩, fun later g offends => ?_, rfl⟩
    obtain ⟨piece', mem', read'⟩ := offends_iff.1 offends
    have order := pairwise_locate (List.nil_notMem_splitBy joins text.points) 0
    change (locate 0 (pieces text.points)).Pairwise _ at order
    rw [cut] at mem' order
    rcases List.mem_append.1 mem' with hb | ha
    · obtain ⟨t, ok⟩ := passed _ hb
      rw [ok] at read'
      cases read'
    · rcases List.mem_cons.1 ha with eq | ha
      · cases eq
        exact Nat.le_refl _
      · have behind := (List.pairwise_cons.1 (List.pairwise_append.1 order).2.1).1 _ ha
        exact Nat.le_of_lt behind
  refine ⟨leftmost, ?_⟩
  rintro ⟨start, f, offends, first, rfl⟩
  cases h : scan text with
  | ok ts => exact absurd offends (exists_scan_iff.1 ⟨ts, h⟩ start f)
  | error failure =>
    obtain ⟨start', f', offends', first', rfl⟩ := leftmost h
    obtain rfl := Nat.le_antisymm (first _ _ offends') (first' _ _ offends)
    rw [offends'.unique offends]

/-- A run with one point at most has a digit in it, unless it is that point alone. -/
theorem exists_isDigit_of_ne {run : List CodePoint} (numeric : ∀ p ∈ run, p.isIn isNumeric = true)
    (nonempty : run ≠ []) (points : run.count (.ofChar '.') ≤ 1) (digits : run ≠ [.ofChar '.']) :
    ∃ p ∈ run, p.isIn Char.isDigit = true := by
  by_contra none
  have same : ∀ p ∈ run, p = CodePoint.ofChar '.' := by
    intro p hp
    obtain ⟨c, rfl, hc⟩ := CodePoint.isIn_iff.1 (numeric p hp)
    rw [isNumeric, Bool.or_eq_true, beq_iff_eq] at hc
    rcases hc with digit | rfl
    · exact absurd ⟨_, hp, by rw [CodePoint.isIn_ofChar, digit]⟩ none
    · rfl
  have all : run = List.replicate run.length (.ofChar '.') := List.eq_replicate_iff.2 ⟨rfl, same⟩
  have length : run.length = 1 := by
    rw [all, List.count_replicate_self] at points
    have := List.length_pos_iff.2 nonempty
    omega
  rw [length] at all
  exact digits all

/-- Nothing is wrong with a text if and only if it is in the alphabet and its maximal runs of digits
and points are numbers. -/
theorem not_offends_iff {ps : List CodePoint} :
    (∀ start f, ¬ Offends ps start f) ↔
      (∀ p ∈ ps, InAlphabet p) ∧ ∀ start run, MaximalRun isNumeric ps start run →
        (∃ p ∈ run, p.isIn Char.isDigit = true) ∧ run.count (.ofChar '.') ≤ 1 := by
  constructor
  · intro fine
    refine ⟨fun p hp => ?_, fun start run run_max => ?_⟩
    · obtain ⟨i, place⟩ := List.mem_iff_getElem?.1 hp
      by_contra outside
      exact fine i _ (.outside place outside)
    · have points : run.count (.ofChar '.') ≤ 1 := by
        by_contra many
        exact fine start _ (.malformed (.repeatedPoint run_max (by omega)))
      have digits : run ≠ [.ofChar '.'] := by
        rintro rfl
        exact fine start _ (.malformed (.lonePoint run_max))
      obtain ⟨-, -, -, -, nonempty, numeric, -⟩ := run_max
      exact ⟨exists_isDigit_of_ne numeric nonempty points digits, points⟩
  · rintro ⟨inside, numbers⟩ start f offends
    cases offends with
    | malformed h =>
      cases h with
      | repeatedPoint run_max points =>
        have := (numbers _ _ run_max).2
        omega
      | lonePoint run_max =>
        obtain ⟨p, hp, digit⟩ := (numbers _ _ run_max).1
        obtain rfl := List.mem_singleton.1 hp
        rw [CodePoint.isIn_ofChar] at digit
        exact absurd digit (by decide)
    | outside place outside => exact outside (inside _ (List.mem_of_getElem? place))

/-! ## Validating -/

/-- A text is valid if and only if it is in the alphabet. -/
theorem validate_eq_ok_iff {text : CodeText} :
    validate text = .ok () ↔ ∀ p ∈ text.points, InAlphabet p := by
  simp only [← isIn_isInAlphabet_iff]
  refine ⟨fun valid => ?_, validate_eq_ok⟩
  by_contra outside
  obtain ⟨q, i, refused⟩ := exists_validate_eq_raise outside
  rw [refused] at valid
  cases valid

/-- **An invalid text is refused for the leftmost code point outside the alphabet.** -/
theorem exists_of_validate_error {text : CodeText} {failure : Failure}
    (h : validate text = .error failure) :
    ∃ (start : Nat) (p : CodePoint), text.points[start]? = some p ∧ ¬ InAlphabet p ∧
      (∀ i < start, ∀ q, text.points[i]? = some q → InAlphabet q) ∧
      failure = .fault (.invalidCharacter p start) none := by
  rw [validate, isAdmitted_eq_isInAlphabet] at h
  split at h
  · cases h
  · rename_i start found
    obtain ⟨bound, refused, passed⟩ := List.findIdx?_eq_some_iff_getElem.1 found
    rw [List.getElem?_eq_getElem bound] at h
    refine ⟨start, text.points[start], List.getElem?_eq_getElem bound, ?_, ?_, ?_⟩
    · rw [← isIn_isInAlphabet_iff]
      simpa using refused
    · intro i hi q hq
      obtain ⟨_, rfl⟩ := List.getElem?_eq_some_iff.1 hq
      rw [← isIn_isInAlphabet_iff]
      simpa using passed i hi
    · cases h
      rfl

/-- What validating refuses a text for, scanning does, unless a malformed number is further left. -/
theorem scan_of_validate_error {text : CodeText} {start : Nat} {p : CodePoint}
    (place : text.points[start]? = some p) (outside : ¬ InAlphabet p)
    (passed : ∀ i < start, ∀ q, text.points[i]? = some q → InAlphabet q) :
    ((∀ i < start, ∀ f, ¬ Malformed text.points i f) ∧
        scan text = .error (.fault (.invalidCharacter p start) none)) ∨
      ∃ i < start, ∃ f, Malformed text.points i f ∧ scan text = .error (.fault f none) := by
  have offends : Offends text.points start _ := .outside place outside
  cases h : scan text with
  | ok ts => exact absurd offends (exists_scan_iff.1 ⟨ts, h⟩ start _)
  | error failure =>
    obtain ⟨i, f, offends', first, rfl⟩ := scan_eq_error_iff.1 h
    rcases Nat.lt_or_eq_of_le (first _ _ offends) with before | rfl
    · right
      cases offends' with
      | malformed malformed => exact ⟨i, before, f, malformed, rfl⟩
      | outside place' outside' => exact absurd (passed i before _ place') outside'
    · left
      refine ⟨fun j hj f malformed => ?_, ?_⟩
      · exact absurd (first j f (.malformed malformed)) (Nat.not_le.2 hj)
      · rw [offends'.unique offends]

/-- **Scanning and validating, for every text of code points.**

* A text is cut into tokens if and only if it is in the alphabet and every maximal run of digits and
  points has a digit and at most one point in it.
* Its tokens are then the whole text in order, each at the place where it stands: the numbers are
  the maximal runs of digits and points, the names the maximal runs of letters, and every other
  token is one character of its kind.
* Otherwise the scan fails with the fault of the leftmost malformed number or code point outside the
  alphabet, which tells its place; the code is 3008 for a run with two points or more, 3031 for a
  point alone, and 3030 for a code point outside the alphabet.  The message names the place, with
  the code point if it is outside the alphabet.
* Validating accepts the texts in the alphabet.  A text that it refuses has the same fault when it
  is scanned, unless a malformed number is further left; one that it accepts is never refused for a
  character when it is scanned. -/
theorem scan_and_validate (text : CodeText) :
    ((∃ ts, scan text = .ok ts) ↔
      (∀ p ∈ text.points, InAlphabet p) ∧
        ∀ start run, MaximalRun isNumeric text.points start run →
          (∃ p ∈ run, p.isIn Char.isDigit = true) ∧ run.count (.ofChar '.') ≤ 1) ∧
    (∀ ts, scan text = .ok ts → ConsistsOf text.points ts) ∧
    (∀ failure, scan text = .error failure ↔
      ∃ start f, Offends text.points start f ∧
        (∀ later g, Offends text.points later g → start ≤ later) ∧ failure = .fault f none) ∧
    (∀ start f, Offends text.points start f →
      (f.code = "3008" ↔ ∃ run, MaximalRun isNumeric text.points start run ∧
        2 ≤ run.count (.ofChar '.')) ∧
      (f.code = "3031" ↔ MaximalRun isNumeric text.points start [.ofChar '.']) ∧
      (f.code = "3030" ↔ ∃ p, text.points[start]? = some p ∧ ¬ InAlphabet p) ∧
      (f.code = "3008" →
        f.message = "More than one '.' in the number at position " ++ toString start) ∧
      (f.code = "3031" → f.message = "Number without digits at position " ++ toString start) ∧
      (f.code = "3030" → ∃ p, text.points[start]? = some p ∧ f.message =
        "Invalid character " ++ (CodeText.mk [p]).quoted ++ " at position " ++ toString start)) ∧
    (validate text = .ok () ↔ ∀ p ∈ text.points, InAlphabet p) ∧
    (∀ failure, validate text = .error failure →
      ∃ (start : Nat) (p : CodePoint), text.points[start]? = some p ∧ ¬ InAlphabet p ∧
        failure = .fault (.invalidCharacter p start) none ∧
        (Fault.invalidCharacter p start).code = "3030" ∧
        (Fault.invalidCharacter p start).message =
          "Invalid character " ++ (CodeText.mk [p]).quoted ++ " at position " ++ toString start ∧
        (((∀ i < start, ∀ f, ¬ Malformed text.points i f) ∧ scan text = .error failure) ∨
          ∃ i < start, ∃ f, Malformed text.points i f ∧ scan text = .error (.fault f none))) ∧
    (validate text = .ok () → ∀ p i equation,
      scan text ≠ .error (.fault (.invalidCharacter p i) equation)) := by
  refine ⟨exists_scan_iff.trans not_offends_iff, fun _ => consistsOf_of_scan,
    fun _ => scan_eq_error_iff, fun start f offends => ?_, validate_eq_ok_iff,
    fun failure refused => ?_, fun valid p i equation h => ?_⟩
  · obtain ⟨repeated, lone, outside⟩ := offends.code_iff
    exact ⟨repeated, lone, outside, offends.message_eq⟩
  · obtain ⟨start, p, place, outside, passed, rfl⟩ := exists_of_validate_error refused
    exact ⟨start, p, place, outside, rfl, rfl, rfl, scan_of_validate_error place outside passed⟩
  · obtain ⟨start, f, offends, -, fault⟩ := scan_eq_error_iff.1 h
    cases fault
    cases offends with
    | malformed malformed => cases malformed
    | outside place outside =>
      exact outside (validate_eq_ok_iff.1 valid _ (List.mem_of_getElem? place))

/-- A name, a sign and a number are cut apart; a degree sign is what is wrong with a text unless a
number with two points is in front of it. -/
theorem scan_and_validate_degree :
    (scan "pi*.5" = .ok [⟨.identifier, "pi", 0⟩, ⟨.operator, "*", 2⟩, ⟨.number, ".5", 3⟩] ∧
      ConsistsOf (CodeText.ofString "pi*.5").points
        [⟨.identifier, "pi", 0⟩, ⟨.operator, "*", 2⟩, ⟨.number, ".5", 3⟩]) ∧
    validate "1+..2°" = .error (.fault (.invalidCharacter (.ofChar '°') 5) none) ∧
    (Fault.invalidCharacter (.ofChar '°') 5).message = "Invalid character '°' at position 5" ∧
    ∃ i < 5, ∃ f, Malformed (CodeText.ofString "1+..2°").points i f ∧ f.code = "3008" ∧
      f.message = "More than one '.' in the number at position " ++ toString i ∧
      scan "1+..2°" = .error (.fault f none) := by
  have scanned : scan "pi*.5" =
      .ok [⟨.identifier, "pi", 0⟩, ⟨.operator, "*", 2⟩, ⟨.number, ".5", 3⟩] := by decide +kernel
  have refused : validate "1+..2°" =
      .error (.fault (.invalidCharacter (.ofChar '°') 5) none) := by decide +kernel
  have other : scan "1+..2°" = .error (.fault (.repeatedPoint 2) none) := by decide +kernel
  have message : (Fault.invalidCharacter (.ofChar '°') 5).message =
      "Invalid character '°' at position 5" := by decide +kernel
  refine ⟨⟨scanned, (scan_and_validate _).2.1 _ scanned⟩, refused, message, ?_⟩
  obtain ⟨start, p, -, -, fault, -, -, ⟨-, same⟩ | ⟨i, before, f, malformed, read⟩⟩ :=
    (scan_and_validate _).2.2.2.2.2.1 _ refused
  · rw [other] at same
    cases same
  · have place : start = 5 := by
      simp only [Failure.fault.injEq, Fault.invalidCharacter.injEq] at fault
      omega
    rw [place] at before
    obtain rfl : Fault.repeatedPoint 2 = f := by
      rw [other] at read
      cases read
      rfl
    obtain ⟨-, -, -, named, -⟩ :=
      (scan_and_validate (CodeText.ofString "1+..2°")).2.2.2.1 i _ (.malformed malformed)
    exact ⟨i, before, _, malformed, rfl, named rfl, read⟩

end Token
end DeskCalculator
