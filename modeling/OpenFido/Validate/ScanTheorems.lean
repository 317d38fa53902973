/-
OpenFido.Validate.ScanTheorems — what `file_pattern.findall` returns, for
every text.

§1 One position. At a reference `src/` ++ w ++ `.` ++ e (`RefShape`) the
   match is the whole reference (`matchHead_reference`), and every match is
   such a reference (`matchHead_eq_some`). The greedy run cannot give back
   characters usefully: `.` is not in the class, so below the full run the
   end `\.[ch]` always meets a class character (`backtrack_run`).
§2 Soundness: every string of the scan is a reference standing in the text
   (`findall_sound`).
§3 Completeness: a reference whose left neighbour is not a class character
   is in the scan (`findall_complete`). An earlier match that ran past the
   reference's `s` would hold that `s` after a class character
   (`class_before_s`), which the boundary rules out, so every earlier match
   ends before the reference starts (`match_ends_before`).
§4 Locality: no match holds a separator, a character outside the class
   other than `.`, so the scan splits there (`findall_append_sep`) and
   `parse_cmake_sources` reads the manifest piece by piece
   (`parseCmakeSources_splitOn`).
§5 Line ends: `\r` and `\n` are separators, so the scan finds the same
   matches in a text and in its text-mode reading
   (`parseCmakeSources_readText`).

The scan is not structurally recursive in the form the proofs want (after a
match it resumes at the match's end), so the induction is packaged once,
`findall_induction`, with one case per branch of the scan.
-/
import OpenFido.Validate.ValidateBuild

namespace OpenFido.Validate

/-! ## §1 One position -/

/-- The text `src/` ++ w ++ `.` ++ e. -/
def reference (w : List Char) (e : Char) : List Char := 's' :: 'r' :: 'c' :: '/' :: (w ++ ['.', e])

/-- What `file_pattern` accepts: `w` a non-empty run of class characters,
`e` one of the two extensions. -/
structure RefShape (w : List Char) (e : Char) : Prop where
  ne_nil : w ≠ []
  pathChars : ∀ c ∈ w, isPathChar c = true
  ext : e = 'c' ∨ e = 'h'

@[simp] theorem length_reference (w : List Char) (e : Char) :
    (reference w e).length = w.length + 6 := by
  simp [reference]

theorem isPathChar_dot : isPathChar '.' = false := by decide

theorem extensionAt_cons_of_pathChar {c : Char} (hc : isPathChar c = true) (t : List Char) :
    extensionAt (c :: t) = false := by
  have : c ≠ '.' := by rintro rfl; simp [isPathChar_dot] at hc
  unfold extensionAt
  split <;> simp_all

/-- Inside the greedy run the end `\.[ch]` cannot match. -/
theorem extensionAt_drop_of_lt {s : List Char} {j : Nat}
    (hj : j < (s.takeWhile isPathChar).length) : extensionAt (s.drop j) = false := by
  have hs : s.drop j = (s.takeWhile isPathChar).drop j ++ s.dropWhile isPathChar := by
    conv_lhs => rw [← List.takeWhile_append_dropWhile isPathChar s]
    exact List.drop_append_of_le_length hj.le
  obtain ⟨c, t, hct⟩ := List.exists_cons_of_length_pos
    (show 0 < ((s.takeWhile isPathChar).drop j).length by simp; omega)
  have hc : isPathChar c = true :=
    List.mem_takeWhile_imp (List.mem_of_mem_drop (hct ▸ List.mem_cons_self c t))
  rw [hs, hct, List.cons_append, extensionAt_cons_of_pathChar hc]

theorem backtrack_below {s : List Char} :
    ∀ {m : Nat}, m < (s.takeWhile isPathChar).length → backtrack s m = none
  | 0, _ => rfl
  | m + 1, hm => by
    rw [backtrack, extensionAt_drop_of_lt hm, if_neg (by simp), backtrack_below (by omega)]

/-- Backtracking succeeds only at the full run. -/
theorem backtrack_run (s : List Char) :
    backtrack s (s.takeWhile isPathChar).length =
      if 0 < (s.takeWhile isPathChar).length ∧ extensionAt (s.drop (s.takeWhile isPathChar).length)
      then some (s.takeWhile isPathChar).length else none := by
  rcases h : (s.takeWhile isPathChar).length with _ | k
  · rfl
  · rw [backtrack, backtrack_below (by omega)]
    simp

theorem matchHead_reference {w : List Char} {e : Char} (hr : RefShape w e) (t : List Char) :
    matchHead (reference w e ++ t) = some (w.length + 6) := by
  have hrun : (w ++ '.' :: e :: t).takeWhile isPathChar = w := by
    rw [List.takeWhile_append_of_pos hr.pathChars]
    simp [List.takeWhile_cons, isPathChar_dot]
  have hext : extensionAt ('.' :: e :: t) = true := by rcases hr.ext with rfl | rfl <;> rfl
  have hw : 0 < w.length := List.length_pos.mpr hr.ne_nil
  simp only [reference, List.cons_append, List.append_assoc, List.singleton_append, matchHead,
    List.nil_append]
  rw [backtrack_run, hrun, if_pos ⟨hw, by rwa [List.drop_left]⟩]
  rfl

/-- Every match is a whole reference at the head of the text. -/
theorem matchHead_eq_some {s : List Char} {n : Nat} (h : matchHead s = some n) :
    ∃ w e t, RefShape w e ∧ s = reference w e ++ t ∧ n = w.length + 6 := by
  unfold matchHead at h
  split at h
  · rename_i rest
    obtain ⟨k, hk, rfl⟩ := Option.map_eq_some'.mp h
    rw [backtrack_run] at hk
    split at hk
    · rename_i hcond
      cases hk
      set w := rest.takeWhile isPathChar
      have hsplit : rest = w ++ rest.dropWhile isPathChar := (List.takeWhile_append_dropWhile _ _).symm
      have hext := hcond.2
      rw [hsplit, List.drop_left] at hext
      unfold extensionAt at hext
      split at hext
      · rename_i e t hd
        refine ⟨w, e, t, ⟨List.length_pos.mp hcond.1, fun c hc => List.mem_takeWhile_imp hc,
          by simpa using hext⟩, ?_, rfl⟩
        rw [hsplit, hd]
        simp [reference]
      · cases hext
    · cases hk
  · cases h

/-! ## §2 Soundness -/

/-- The induction the scan supports: one case per branch. -/
theorem findall_induction (P : List Char → Prop) (nil : P [])
    (hit : ∀ s n, s ≠ [] → matchHead s = some n → P (s.drop n) → P s)
    (miss : ∀ c cs, matchHead (c :: cs) = none → P cs → P (c :: cs)) : ∀ s, P s
  | [] => nil
  | c :: cs => by
    rcases h : matchHead (c :: cs) with _ | n
    · exact miss c cs h (findall_induction P nil hit miss cs)
    · have := matchHead_pos h
      exact hit _ n (List.cons_ne_nil c cs) h (findall_induction P nil hit miss _)
termination_by s => s.length
decreasing_by
  · simp
  · simp only [List.length_drop, List.length_cons]; omega

/-- **Soundness of the scan.** Every string `findall` returns is a reference
that stands, contiguous, in the text. -/
theorem findall_sound (s : List Char) :
    ∀ r ∈ findall s, ∃ w e, RefShape w e ∧ r = String.mk (reference w e) ∧ reference w e <:+: s := by
  induction s using findall_induction with
  | nil => simp
  | hit s n hs h ih =>
    obtain ⟨w, e, t, hr, rfl, rfl⟩ := matchHead_eq_some h
    rw [findall_of_some hs h]
    intro r hmem
    rcases List.mem_cons.mp hmem with rfl | hmem
    · refine ⟨w, e, hr, ?_, List.infix_append [] _ t⟩
      rw [← length_reference w e, List.take_left]
    · obtain ⟨w', e', hr', rfl, hinf⟩ := ih r hmem
      exact ⟨w', e', hr', rfl, hinf.trans (List.drop_suffix _ _).isInfix⟩
  | miss c cs h ih =>
    rw [findall_of_none h]
    intro r hmem
    obtain ⟨w, e, hr, rfl, hinf⟩ := ih r hmem
    exact ⟨w, e, hr, rfl, hinf.trans (List.suffix_cons c cs).isInfix⟩

/-! ## §3 Completeness -/

/-- No class character stands right before position `pre.length`. -/
def LeftBoundary (pre : List Char) : Prop := ∀ c ∈ pre.getLast?, isPathChar c = false

instance (pre : List Char) : Decidable (LeftBoundary pre) :=
  inferInstanceAs (Decidable (∀ c ∈ pre.getLast?, isPathChar c = false))

theorem leftBoundary_drop {pre : List Char} (h : LeftBoundary pre) (n : Nat) :
    LeftBoundary (pre.drop n) := by
  intro c hc
  rw [List.getLast?_drop] at hc
  split at hc
  · cases hc
  · exact h c hc

/-- Every `s` of a reference after its first character follows a class
character: all of `src/` ++ w is in the class. -/
theorem class_before_s {w : List Char} {e : Char} (hr : RefShape w e) {pre y : List Char}
    (hpre : pre ≠ []) (h : reference w e = pre ++ 's' :: y) : ¬ LeftBoundary pre := by
  have hrun : ∀ c ∈ 's' :: 'r' :: 'c' :: '/' :: w, isPathChar c = true := by
    simp only [List.mem_cons]
    rintro c (rfl | rfl | rfl | rfl | hc)
    any_goals decide
    exact hr.pathChars c hc
  have hsplit : reference w e = ('s' :: 'r' :: 'c' :: '/' :: w) ++ ['.', e] := by simp [reference]
  rw [hsplit, eq_comm, List.append_eq_append_iff] at h
  rcases h with ⟨a, hpref, -⟩ | ⟨c', -, hext⟩
  · intro hb
    obtain ⟨c, hc⟩ := Option.ne_none_iff_exists'.mp (mt List.getLast?_eq_none_iff.mp hpre)
    have hmem : c ∈ 's' :: 'r' :: 'c' :: '/' :: w := by
      rw [hpref]; exact List.mem_append_left _ (List.mem_of_mem_getLast? hc)
    exact absurd (hrun c hmem) (by simp [hb c hc])
  · have : 's' ∈ ['.', e] := by rw [hext]; simp
    rcases hr.ext with rfl | rfl <;> simp at this

/-- A match that starts before a bounded reference ends before it. -/
theorem match_ends_before {pre x : List Char} {n : Nat} (hpre : pre ≠ []) (hb : LeftBoundary pre)
    (h : matchHead (pre ++ 's' :: x) = some n) : n ≤ pre.length := by
  obtain ⟨w, e, t, hr, hs, rfl⟩ := matchHead_eq_some h
  by_contra hlt
  rw [List.append_eq_append_iff] at hs
  rcases hs with ⟨a, hpa, hsa⟩ | ⟨c', hpc, -⟩
  · cases a with
    | nil =>
      have := congrArg List.length hpa
      simp at this
      omega
    | cons a y =>
      obtain ⟨rfl, -⟩ := List.cons_eq_cons.mp (hsa.trans (List.cons_append a y t)).symm
      exact class_before_s hr hpre hpa hb
  · have := congrArg List.length hpc
    simp at this
    omega

/-- **Completeness of the scan.** A reference whose left neighbour is not a
class character is returned by `findall`, wherever it stands. -/
theorem findall_complete {w : List Char} {e : Char} (hr : RefShape w e) :
    ∀ s pre post, s = pre ++ reference w e ++ post → LeftBoundary pre →
      String.mk (reference w e) ∈ findall s := by
  intro s
  induction s using findall_induction with
  | nil => intro pre post hs; simp [reference] at hs
  | hit s n hs h ih =>
    intro pre post hsplit hb
    rw [findall_of_some hs h]
    rcases pre with _ | ⟨c, pre'⟩
    · rw [List.nil_append] at hsplit
      subst hsplit
      rw [matchHead_reference hr post, Option.some_inj] at h
      subst h
      rw [← length_reference w e, List.take_left]
      exact List.mem_cons_self _ _
    · have hs' : s = (c :: pre') ++ 's' :: ('r' :: 'c' :: '/' :: (w ++ ['.', e]) ++ post) := by
        rw [hsplit]; simp [reference]
      have hle : n ≤ (c :: pre').length :=
        match_ends_before (List.cons_ne_nil c pre') hb (hs' ▸ h)
      refine List.mem_cons_of_mem _ (ih ((c :: pre').drop n) post ?_ (leftBoundary_drop hb n))
      rw [hsplit, List.append_assoc, List.drop_append_of_le_length hle, List.append_assoc]
  | miss c cs h ih =>
    intro pre post hsplit hb
    rw [findall_of_none h]
    rcases pre with _ | ⟨c', pre'⟩
    · rw [List.nil_append] at hsplit
      rw [hsplit, matchHead_reference hr post] at h
      cases h
    · obtain ⟨rfl, rfl⟩ := List.cons_eq_cons.mp hsplit
      exact ih pre' post rfl (by simpa using leftBoundary_drop hb 1)

/-! ## §4 Locality

A separator `c` is a character no match holds (`isPathChar c = false`)
and that cannot follow the greedy run as the `.` of the extension
(`c ≠ '.'`): a newline, a space, a parenthesis, a quote. -/

section Separator

variable {c : Char} (hc : isPathChar c = false) (hdot : c ≠ '.')

theorem mem_reference {w : List Char} {e : Char} (hr : RefShape w e) {x : Char} (hx : x ∈ reference w e) :
    isPathChar x = true ∨ x = '.' := by
  simp only [reference, List.mem_cons, List.mem_append, List.mem_singleton, List.not_mem_nil,
    or_false] at hx
  rcases hx with rfl | rfl | rfl | rfl | hw | rfl | rfl
  iterate 4 exact .inl (by decide)
  · exact .inl (hr.pathChars x hw)
  · exact .inr rfl
  · rcases hr.ext with rfl | rfl <;> exact .inl (by decide)

/-- A match at the head of `s` is the same match with anything after `s`. -/
theorem matchHead_append_of_some {s : List Char} {n : Nat} (h : matchHead s = some n) (t : List Char) :
    matchHead (s ++ t) = some n ∧ n ≤ s.length := by
  obtain ⟨w, e, t', hr, rfl, rfl⟩ := matchHead_eq_some h
  refine ⟨by rw [List.append_assoc, matchHead_reference hr], ?_⟩
  simp

include hc hdot

/-- No match at the head of `s` starts there once a separator follows `s`:
it would have to hold the separator. -/
theorem matchHead_append_sep_of_none {s : List Char} (h : matchHead s = none) (t : List Char) :
    matchHead (s ++ c :: t) = none := by
  rcases hm : matchHead (s ++ c :: t) with _ | n
  · rfl
  obtain ⟨w, e, t', hr, hs, -⟩ := matchHead_eq_some hm
  rcases List.append_eq_append_iff.mp hs with ⟨a, hra, hca⟩ | ⟨a, hsa, -⟩
  · cases a with
    | nil =>
      rw [List.append_nil] at hra
      rw [← hra, ← List.append_nil (reference w e), matchHead_reference hr] at h
      cases h
    | cons x a =>
      obtain ⟨rfl, -⟩ := List.cons_eq_cons.mp hca
      rcases mem_reference hr (hra ▸ List.mem_append_right s (List.mem_cons_self c a)) with hx | hx
      · exact absurd (hc.symm.trans hx) (by simp)
      · exact absurd hx hdot
  · rw [hsa, matchHead_reference hr] at h
    cases h

/-- **The scan splits at a separator.** -/
theorem findall_append_sep : ∀ s t : List Char, findall (s ++ c :: t) = findall s ++ findall t := by
  intro s
  induction s using findall_induction with
  | nil =>
    intro t
    have hs : c ≠ 's' := by rintro rfl; exact absurd hc (by decide)
    rw [List.nil_append, findall_of_none (by simp [matchHead, hs]), findall_nil, List.nil_append]
  | hit s n hs h ih =>
    intro t
    obtain ⟨h', hle⟩ := matchHead_append_of_some h (c :: t)
    rw [findall_of_some (by simp [hs]) h', findall_of_some hs h, List.take_append_of_le_length hle,
      List.drop_append_of_le_length hle, ih, List.cons_append]
  | miss d ds h ih =>
    intro t
    have h' : matchHead (d :: (ds ++ c :: t)) = none := matchHead_append_sep_of_none hc hdot h t
    rw [List.cons_append, findall_of_none h', ih, findall_of_none h]

theorem findall_intercalate : ∀ ls : List (List Char), findall ([c].intercalate ls) = ls.flatMap findall
  | [] => rfl
  | [l] => by simp [List.intercalate]
  | l :: l' :: ls => by
    rw [show [c].intercalate (l :: l' :: ls) = l ++ c :: [c].intercalate (l' :: ls) by
        simp [List.intercalate, List.intersperse_cons_cons],
      findall_append_sep hc hdot, findall_intercalate (l' :: ls)]
    rfl

/-- **`parse_cmake_sources` reads the manifest piece by piece.** Cut the
manifest at every separator (every newline, say): the paths returned
are the matches of the pieces, in order, each kept once. No path is glued
across a separator and none is lost at one. -/
theorem parseCmakeSources_splitOn (T : String) :
    parseCmakeSources T = removeDuplicates ((T.toList.splitOn c).flatMap findall) := by
  rw [parseCmakeSources, ← findall_intercalate hc hdot, List.intercalate_splitOn]

end Separator

theorem parseCmakeSources_splitOn_lines :
    isPathChar '\n' = false ∧ '\n' ≠ '.' ∧
    parseCmakeSources "add(src/a.c\n  src/b.h)" =
      removeDuplicates (("add(src/a.c\n  src/b.h)".toList.splitOn '\n').flatMap findall) :=
  ⟨by decide, by decide, parseCmakeSources_splitOn (by decide) (by decide) _⟩

open OpenFido.Python

/-! ## §5 Line ends

`\r` and `\n` are both separators, so the scan does not see how a line
ends: it finds the same matches in a text and in the text a text-mode read
returns for it. -/

/-- The scan after any `a` is the same on a text and on its universal
newline reading. -/
theorem findall_append_universalNewlines (s : List Char) :
    ∀ a : List Char, findall (a ++ universalNewlines s) = findall (a ++ s) := by
  have lf : ∀ s t, findall (s ++ '\n' :: t) = findall s ++ findall t :=
    @findall_append_sep '\n' (by decide) (by decide)
  have cr : ∀ s t, findall (s ++ '\r' :: t) = findall s ++ findall t :=
    @findall_append_sep '\r' (by decide) (by decide)
  induction s using universalNewlines.induct with
  | case1 cs ih =>
    intro a
    have hcs : findall ('\n' :: cs) = findall cs := by simpa using lf [] cs
    have hu : findall (universalNewlines cs) = findall cs := by simpa using ih []
    rw [universalNewlines, lf, cr, hcs, hu]
  | case2 cs hne ih =>
    intro a
    have hu : findall (universalNewlines cs) = findall cs := by simpa using ih []
    rw [universalNewlines_cr_of_not_lf hne, lf, cr, hu]
  | case3 c cs _ hc ih =>
    intro a
    rw [universalNewlines_cons_of_ne hc]
    simpa using ih (a ++ [c])
  | case4 => intro a; rfl

theorem parseCmakeSources_readText (T : String) : parseCmakeSources (readText T) = parseCmakeSources T := by
  have h := findall_append_universalNewlines T.toList []
  rw [List.nil_append, List.nil_append] at h
  exact congrArg removeDuplicates h

end OpenFido.Validate
