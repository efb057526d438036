/-
  Streams that arrive in chunks.

  A stream is a list, and a way of cutting it is a list of lists whose `flatten` is the
  stream.  The first occurrence of an element splits a stream in one way only
  (`split_unique`), and is in one of the chunks (`exists_first`).
-/
import Mathlib.Data.List.Basic

namespace Chunks

variable {α : Type*} {d a : α} {chunks : List (List α)}

/-- What stands before the first `d`, and after it. -/
theorem split_unique {x x' y y' : List α} (hx : d ∉ x) (hx' : d ∉ x')
    (h : x ++ d :: y = x' ++ d :: y') : x = x' ∧ y = y' := by
  rcases List.append_eq_append_iff.1 h with ⟨z, rfl, hz⟩ | ⟨z, rfl, hz⟩
  · cases z with
    | nil => simpa using hz
    | cons b z =>
      obtain ⟨rfl, -⟩ := List.cons.inj hz
      simp at hx'
  · cases z with
    | nil => simpa [eq_comm] using hz
    | cons b z =>
      obtain ⟨rfl, -⟩ := List.cons.inj hz
      simp at hx

/-- The chunk with the first `d`. -/
theorem exists_first (h : d ∈ chunks.flatten) :
    ∃ pre x y post, chunks = pre ++ (x ++ d :: y) :: post ∧ d ∉ pre.flatten ∧ d ∉ x := by
  induction chunks with
  | nil => simp at h
  | cons c chunks ih =>
    by_cases hc : d ∈ c
    · obtain ⟨x, y, rfl, hx⟩ := List.eq_append_cons_of_mem hc
      exact ⟨[], x, y, chunks, rfl, by simp, hx⟩
    · have hd : d ∈ chunks.flatten := by simpa [hc] using h
      obtain ⟨pre, x, y, post, rfl, hpre, hx⟩ := ih hd
      exact ⟨c :: pre, x, y, post, rfl, by simp [hc, hpre], hx⟩

/-- The first element of a stream is that of its first chunk. -/
theorem exists_head (hne : ∀ c ∈ chunks, c ≠ []) (h : chunks.flatten.head? = some a) :
    ∃ c rest, chunks = (a :: c) :: rest := by
  rcases chunks with _ | ⟨_ | ⟨b, c⟩, rest⟩
  · simp at h
  · exact absurd rfl (hne [] (by simp))
  · obtain rfl : b = a := by simpa using h
    exact ⟨c, rest, rfl⟩

end Chunks
