/-
# Where the pieces of a text stand

The scanner cuts a text into pieces once and for all.  What is at a place of the text can be told
without the cutting: a piece is a part that hangs together and that neither of its neighbours hangs
together with (`mem_locate_pieces_iff`).  For a class of characters like the digits and points, the
pieces that begin with one are the maximal runs of that class, which cannot be made longer on either
side (`IsClass.maximalRun_iff`); and what belongs to no class is a piece by itself wherever it
stands (`mem_locate_of_alone`).  No two pieces begin at the same place (`eq_of_mem_locate`).
-/

import DeskCalculator.Proofs.Token.Concatenation
import Mathlib.Data.List.Nodup

namespace DeskCalculator
namespace Token

/-! ## Places -/

/-- A place is the length of the pieces in front of it. -/
theorem mem_locate_iff {ps : List (List CodePoint)} {base start : Nat} {piece : List CodePoint} :
    (start, piece) ∈ locate base ps ↔
      ∃ before after, ps = before ++ piece :: after ∧ start = base + before.flatten.length := by
  constructor
  · intro h
    induction ps generalizing base with
    | nil => cases h
    | cons first rest ih =>
      rw [locate] at h
      rcases List.mem_cons.1 h with eq | h
      · cases eq
        exact ⟨[], rest, rfl, rfl⟩
      · obtain ⟨before, after, rfl, rfl⟩ := ih h
        refine ⟨first :: before, after, rfl, ?_⟩
        rw [List.flatten_cons, List.length_append, Nat.add_assoc]
  · rintro ⟨before, after, rfl, rfl⟩
    rw [locate_append, locate]
    exact List.mem_append_right _ List.mem_cons_self

/-- Pieces that are not empty begin one behind the other. -/
theorem pairwise_locate {ps : List (List CodePoint)} (h : [] ∉ ps) (base : Nat) :
    (locate base ps).Pairwise (·.1 < ·.1) := by
  induction ps generalizing base with
  | nil => exact .nil
  | cons first rest ih =>
    rw [List.mem_cons, not_or] at h
    have length : 0 < first.length := List.length_pos_iff.2 (Ne.symm h.1)
    refine .cons (fun located hl => ?_) (ih h.2 _)
    obtain ⟨before, _, -, place⟩ := mem_locate_iff.1 hl
    rw [place]
    omega

/-- **There is one piece at a place.** -/
theorem eq_of_mem_locate {ps : List (List CodePoint)} (h : [] ∉ ps) {base start : Nat}
    {piece piece' : List CodePoint} (hp : (start, piece) ∈ locate base ps)
    (hp' : (start, piece') ∈ locate base ps) : piece = piece' := by
  have distinct : ((locate base ps).map (·.1)).Nodup :=
    List.pairwise_map.2 ((pairwise_locate h base).imp Nat.ne_of_lt)
  exact congrArg Prod.snd (List.inj_on_of_nodup_map distinct hp hp' rfl)

/-! ## Pieces -/

/-- Between two pieces of a text there is a seam. -/
theorem seam_of_pieces {ps : List CodePoint} {front back : List (List CodePoint)}
    (cut : pieces ps = front ++ back) :
    ∀ p ∈ front.flatten.getLast?, ∀ q ∈ back.flatten.head?, joins p q = false := by
  intro p hp q hq
  have nonempty : ∀ piece ∈ front ++ back, piece ≠ [] := by
    intro piece hpiece
    rw [← cut] at hpiece
    exact List.ne_nil_of_mem_splitBy hpiece
  have seams : (front ++ back).IsChain
      fun a b => ∃ ha hb, joins (a.getLast ha) (b.head hb) = false := by
    rw [← cut]
    exact List.isChain_getLast_head_splitBy joins ps
  rcases List.eq_nil_or_concat front with rfl | ⟨init, last, rfl⟩
  · cases hp
  · cases back with
    | nil => cases hq
    | cons first rest =>
      have hlast : last ≠ [] := nonempty last (by simp)
      have hfirst : first ≠ [] := nonempty first (by simp)
      obtain ⟨-, -, apart⟩ := List.isChain_append.1 seams
      obtain ⟨_, _, seam⟩ := apart last (by simp) first (by simp)
      rw [List.concat_eq_append, List.flatten_append, List.flatten_singleton,
        List.getLast?_append_of_ne_nil _ hlast, List.getLast?_eq_some_getLast hlast] at hp
      rw [List.flatten_cons, List.head?_append_of_ne_nil _ hfirst,
        List.head?_eq_some_head hfirst] at hq
      cases hp
      cases hq
      exact seam

/-- **A piece is a part of the text that hangs together, with a seam on both sides.** -/
theorem mem_locate_pieces_iff {ps piece : List CodePoint} {start : Nat} :
    (start, piece) ∈ locate 0 (pieces ps) ↔
      ∃ before after, ps = before ++ piece ++ after ∧ before.length = start ∧ piece ≠ [] ∧
        piece.IsChain (joins · ·) ∧
        (∀ p ∈ before.getLast?, ∀ q ∈ piece.head?, joins p q = false) ∧
        ∀ p ∈ piece.getLast?, ∀ q ∈ after.head?, joins p q = false := by
  constructor
  · intro h
    obtain ⟨front, back, cut, place⟩ := mem_locate_iff.1 h
    have mem : piece ∈ pieces ps := by
      rw [cut]
      exact List.mem_append_right _ List.mem_cons_self
    have nonempty : piece ≠ [] := List.ne_nil_of_mem_splitBy mem
    have whole : ps = front.flatten ++ piece ++ back.flatten := by
      have h := List.flatten_splitBy joins ps
      change (pieces ps).flatten = ps at h
      rw [← h, cut, List.flatten_append, List.flatten_cons, List.append_assoc]
    refine ⟨front.flatten, back.flatten, whole, by omega, nonempty,
      List.isChain_of_mem_splitBy mem, fun p hp q hq => ?_, fun p hp q hq => ?_⟩
    · refine seam_of_pieces cut p hp q ?_
      rw [List.flatten_cons, List.head?_append_of_ne_nil _ nonempty]
      exact hq
    · have cut' : pieces ps = (front ++ [piece]) ++ back := by
        rw [cut, List.append_assoc]
        rfl
      refine seam_of_pieces cut' p ?_ q hq
      rw [List.flatten_append, List.flatten_singleton, List.getLast?_append_of_ne_nil _ nonempty]
      exact hp
  · rintro ⟨before, after, rfl, rfl, nonempty, chain, left, right⟩
    have cut : pieces (before ++ piece ++ after) = pieces before ++ piece :: pieces after := by
      have single : pieces piece = [piece] := List.splitBy_of_isChain nonempty chain
      have front : pieces (before ++ piece) = pieces before ++ pieces piece :=
        List.splitBy_append left
      have back : pieces (before ++ piece ++ after) = pieces (before ++ piece) ++ pieces after := by
        refine List.splitBy_append fun p hp => ?_
        rw [List.getLast?_append_of_ne_nil _ nonempty] at hp
        exact right p hp
      rw [back, front, single, List.append_assoc]
      rfl
    refine mem_locate_iff.2 ⟨pieces before, pieces after, cut, ?_⟩
    have length := congrArg List.length (List.flatten_splitBy joins before)
    change (pieces before).flatten.length = before.length at length
    omega

/-! ## Maximal runs -/

/-- A run of a class of characters, which begins behind `start` code points of the text and which no
neighbour belongs to. -/
def MaximalRun (accepts : Char → Bool) (ps : List CodePoint) (start : Nat)
    (run : List CodePoint) : Prop :=
  ∃ before after, ps = before ++ run ++ after ∧ before.length = start ∧ run ≠ [] ∧
    (∀ p ∈ run, p.isIn accepts = true) ∧
    (∀ p ∈ before.getLast?, p.isIn accepts = false) ∧ ∀ p ∈ after.head?, p.isIn accepts = false

/-- **The maximal runs of a class are the pieces that begin with one of it.** -/
theorem IsClass.maximalRun_iff {accepts : Char → Bool} (h : IsClass accepts)
    {ps run : List CodePoint} {start : Nat} :
    MaximalRun accepts ps start run ↔
      (start, run) ∈ locate 0 (pieces ps) ∧ ∃ p ∈ run.head?, p.isIn accepts = true := by
  rw [mem_locate_pieces_iff]
  constructor
  · rintro ⟨before, after, whole, place, nonempty, all, left, right⟩
    have chain : run.IsChain (joins · ·) := by
      refine (List.Pairwise.imp_of_mem (R := fun _ _ => True) ?_
        (List.pairwise_of_forall fun _ _ => trivial)).isChain
      intro p q hp hq _
      rw [(h p q (all p hp)).1]
      exact all q hq
    refine ⟨⟨before, after, whole, place, nonempty, chain, fun p hp q hq => ?_,
      fun p hp q hq => ?_⟩, run.head nonempty, ?_, all _ (List.head_mem nonempty)⟩
    · rw [(h q p (all q (List.mem_of_mem_head? hq))).2]
      exact left p hp
    · rw [(h p q (all p (List.mem_of_getLast? hp))).1]
      exact right q hq
    · exact List.head?_eq_some_head nonempty
  · rintro ⟨⟨before, after, whole, place, nonempty, chain, left, right⟩, p, hp, accepted⟩
    have all : ∀ q ∈ run, q.isIn accepts = true := by
      cases run with
      | nil => cases hp
      | cons first rest =>
        cases hp
        exact h.forall_of_isChain chain accepted
    refine ⟨before, after, whole, place, nonempty, all, fun q hq => ?_, fun q hq => ?_⟩
    · rw [← (h p q accepted).2]
      exact left q hq p hp
    · have last := all _ (List.getLast_mem nonempty)
      rw [← (h _ q last).1]
      exact right _ (List.getLast?_eq_some_getLast nonempty) q hq

/-- **What joins with nothing is a piece by itself.** -/
theorem mem_locate_of_alone {ps : List CodePoint} {i : Nat} {p : CodePoint} (hp : ps[i]? = some p)
    (alone : ∀ q, joins p q = false ∧ joins q p = false) :
    (i, [p]) ∈ locate 0 (pieces ps) := by
  obtain ⟨bound, rfl⟩ := List.getElem?_eq_some_iff.1 hp
  have whole : ps = ps.take i ++ [ps[i]] ++ ps.drop (i + 1) := by
    rw [List.take_append_getElem, List.take_append_drop]
  have place : (ps.take i).length = i := by
    rw [List.length_take]
    omega
  refine mem_locate_pieces_iff.2 ⟨ps.take i, ps.drop (i + 1), whole, place,
    List.cons_ne_nil _ _, .singleton _, fun q _ r hr => ?_, fun q hq r _ => ?_⟩
  · cases hr
    exact (alone q).2
  · cases hq
    exact (alone r).1

end Token
end DeskCalculator
