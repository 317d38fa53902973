/-
OpenFido.Validate.DedupTheorems — the `seen` loop of `parse_cmake_sources`
keeps each match at its first occurrence.

The loop is a left fold, so one more match at the END of the list is one
more pass of the body (`removeDuplicates_append_singleton`), and every
property below is a snoc induction over the match list: the kept list
grows by the new match exactly when the match is new. The state carries
`seen ↔ source_files` as a field (`SeenState.mem_seen`), so the test
`match not in seen` is read as membership in the kept list without
re-proving the loop invariant.

`removeDuplicates_eq_eraseDups` ties the loop to the standard library's
`List.eraseDups`, whose own loop keeps first occurrences with its
accumulator reversed; `removeDuplicates_indexOf_lt_iff` is the order law
stated on positions: two kept paths come in the order of their first
occurrences among the matches.
-/
import OpenFido.Validate.ValidateBuild

namespace OpenFido.Validate

/-! ## One pass of the body -/

theorem SeenState.step_sourceFiles (st : SeenState) (m : String) :
    (st.step m).sourceFiles = if m ∈ st.sourceFiles then st.sourceFiles else st.sourceFiles ++ [m] := by
  unfold SeenState.step
  by_cases h : m ∈ st.seen <;> simp [h, ← st.mem_seen]

theorem removeDuplicates_append_singleton (ms : List String) (m : String) :
    removeDuplicates (ms ++ [m]) =
      if m ∈ removeDuplicates ms then removeDuplicates ms else removeDuplicates ms ++ [m] := by
  simp only [removeDuplicates, List.foldl_append, List.foldl_cons, List.foldl_nil,
    SeenState.step_sourceFiles]

/-- The loop loses no match and invents none. -/
theorem mem_removeDuplicates (ms : List String) :
    ∀ x, x ∈ removeDuplicates ms ↔ x ∈ ms := by
  induction ms using List.reverseRecOn with
  | nil => simp [removeDuplicates, SeenState.empty]
  | append_singleton ms m ih =>
    intro x
    rw [removeDuplicates_append_singleton]
    split <;> simp_all

theorem removeDuplicates_append_singleton' (ms : List String) (m : String) :
    removeDuplicates (ms ++ [m]) =
      if m ∈ ms then removeDuplicates ms else removeDuplicates ms ++ [m] := by
  rw [removeDuplicates_append_singleton]
  simp only [mem_removeDuplicates]

theorem nodup_removeDuplicates (ms : List String) : (removeDuplicates ms).Nodup :=
  (ms.foldl SeenState.step SeenState.empty).nodup

/-- Two kept paths stand in the order of their first occurrences. -/
theorem removeDuplicates_indexOf_lt_iff (ms : List String) :
    ∀ x ∈ removeDuplicates ms, ∀ y ∈ removeDuplicates ms, x ≠ y →
      ((removeDuplicates ms).indexOf x < (removeDuplicates ms).indexOf y ↔
        ms.indexOf x < ms.indexOf y) := by
  induction ms using List.reverseRecOn with
  | nil => simp [removeDuplicates, SeenState.empty]
  | append_singleton ms m ih =>
    intro x hx y hy hxy
    rw [removeDuplicates_append_singleton'] at hx hy ⊢
    by_cases hm : m ∈ ms
    · simp only [hm, if_true] at hx hy ⊢
      have hxm := (mem_removeDuplicates ms x).mp hx
      have hym := (mem_removeDuplicates ms y).mp hy
      rw [List.indexOf_append_of_mem hxm, List.indexOf_append_of_mem hym]
      exact ih x hx y hy hxy
    · simp only [hm, if_false, List.mem_append, List.mem_singleton] at hx hy ⊢
      have key : ∀ z ∈ removeDuplicates ms,
          (removeDuplicates ms ++ [m]).indexOf z = (removeDuplicates ms).indexOf z ∧
          (ms ++ [m]).indexOf z = ms.indexOf z ∧
          (removeDuplicates ms).indexOf z < (removeDuplicates ms).length ∧
          ms.indexOf z < ms.length := fun z hz =>
        have hzm := (mem_removeDuplicates ms z).mp hz
        ⟨List.indexOf_append_of_mem hz, List.indexOf_append_of_mem hzm,
          List.indexOf_lt_length.mpr hz, List.indexOf_lt_length.mpr hzm⟩
      have hmr : m ∉ removeDuplicates ms := by rwa [mem_removeDuplicates]
      have last : (removeDuplicates ms ++ [m]).indexOf m = (removeDuplicates ms).length ∧
          (ms ++ [m]).indexOf m = ms.length := by
        simp [List.indexOf_append_of_not_mem hmr, List.indexOf_append_of_not_mem hm]
      rcases hx with hx | rfl <;> rcases hy with hy | rfl
      · rw [(key x hx).1, (key y hy).1, (key x hx).2.1, (key y hy).2.1]
        exact ih x hx y hy hxy
      · rw [(key x hx).1, (key x hx).2.1, last.1, last.2]
        exact iff_of_true (key x hx).2.2.1 (key x hx).2.2.2
      · rw [(key y hy).1, (key y hy).2.1, last.1, last.2]
        exact iff_of_false (by have := (key y hy).2.2.1; omega) (by have := (key y hy).2.2.2; omega)
      · exact absurd rfl hxy

/-- The loop computes `List.eraseDups`. -/
theorem removeDuplicates_eq_eraseDups (ms : List String) : removeDuplicates ms = ms.eraseDups := by
  have gen : ∀ (ms : List String) (st : SeenState),
      (ms.foldl SeenState.step st).sourceFiles = List.eraseDups.loop ms st.sourceFiles.reverse := by
    intro ms
    induction ms with
    | nil => simp [List.eraseDups.loop]
    | cons m ms ih =>
      intro st
      rw [List.foldl_cons, ih, List.eraseDups.loop]
      by_cases h : m ∈ st.sourceFiles <;> simp [SeenState.step_sourceFiles, h]
  simpa [removeDuplicates, List.eraseDups, SeenState.empty] using gen ms SeenState.empty

/-- **`parse_cmake_sources` keeps first occurrences.** Its list has no
repeats, holds exactly the matches of the scan, orders two paths as their
first occurrences among the matches, and is the scan with every match kept
only at its first occurrence. -/
theorem parseCmakeSources_first_occurrences (T : String) :
    (parseCmakeSources T).Nodup ∧
    (∀ x, x ∈ parseCmakeSources T ↔ x ∈ findall T.toList) ∧
    (∀ x ∈ parseCmakeSources T, ∀ y ∈ parseCmakeSources T, x ≠ y →
      ((parseCmakeSources T).indexOf x < (parseCmakeSources T).indexOf y ↔
        (findall T.toList).indexOf x < (findall T.toList).indexOf y)) ∧
    parseCmakeSources T = (findall T.toList).eraseDups :=
  ⟨nodup_removeDuplicates _, mem_removeDuplicates _, removeDuplicates_indexOf_lt_iff _,
    removeDuplicates_eq_eraseDups _⟩

end OpenFido.Validate
