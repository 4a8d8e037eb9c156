import Mathlib.Data.List.Induction
import TypeRefs.Reference.Entry

/-!
# Deduplication keeps first occurrences

Two references with one line are equal (`Reference.render_inj`), so `dedupe`
is the writable entries with later copies erased (`dedupe_eq_eraseDups`),
and, read position by position, the entries no earlier writable entry shares
a line with (`dedupe_eq_firstLines`, by induction from the right).
-/

namespace TypeRefs

theorem eraseDups_of_nodup {α : Type} [BEq α] [LawfulBEq α] {l : List α} (h : l.Nodup) :
    l.eraseDups = l := by
  induction l with
  | nil => rfl
  | cons a l ih =>
    rw [List.nodup_cons] at h
    have hkeep : l.filter (fun b => !b == a) = l := by
      rw [List.filter_eq_self]
      intro b hb
      have hba : b ≠ a := fun hab => h.1 (hab ▸ hb)
      simpa using hba
    rw [List.eraseDups_cons, hkeep, ih h.2]

theorem removeAll_congr {α : Type} [BEq α] [LawfulBEq α] (xs : List α) {ys zs : List α}
    (h : ∀ a, a ∈ ys ↔ a ∈ zs) : xs.removeAll ys = xs.removeAll zs := by
  unfold List.removeAll
  apply List.filter_congr
  intro a _
  simp [h a]

namespace Reference

theorem render_package (name : String) :
    (package name).render = "/// <reference types=\"" ++ name ++ "\" />" := rfl

theorem render_path (p : String) :
    (path p).render = "/// <reference path=\"" ++ p ++ "\" />" := rfl

theorem render_package_ne_render_path (name p : String) :
    (package name).render ≠ (path p).render := by
  intro h
  have htypes : "/// <reference types=\"" = "/// <reference " ++ "t" ++ "ypes=\"" := rfl
  have hpath : "/// <reference path=\"" = "/// <reference " ++ "p" ++ "ath=\"" := rfl
  rw [render_package, render_path, htypes, hpath] at h
  simp only [String.append_assoc, String.append_right_inj] at h
  have hhead := congrArg (fun s => s.toList.head?) h
  simp at hhead

theorem render_inj {r₁ r₂ : Reference} (h : r₁.render = r₂.render) : r₁ = r₂ := by
  cases r₁ with
  | package a =>
    cases r₂ with
    | package b =>
      rw [render_package, render_package, String.append_left_inj, String.append_right_inj] at h
      rw [h]
    | path b => exact absurd h (render_package_ne_render_path a b)
  | path a =>
    cases r₂ with
    | package b => exact absurd h.symm (render_package_ne_render_path b a)
    | path b =>
      rw [render_path, render_path, String.append_left_inj, String.append_right_inj] at h
      rw [h]

theorem render_beq_render (r₁ r₂ : Reference) : (r₁.render == r₂.render) = (r₁ == r₂) := by
  by_cases h : r₁ = r₂
  · subst h
    simp
  · have hne : r₁.render ≠ r₂.render := fun hr => h (render_inj hr)
    rw [beq_eq_false_iff_ne.mpr hne, beq_eq_false_iff_ne.mpr h]

theorem dedupeFrom_eq_eraseDups (seen : List String) (rs : List Reference) :
    dedupeFrom seen rs =
      (rs.filter fun r => r.isWritable && !seen.contains r.render).eraseDups := by
  induction rs generalizing seen with
  | nil => rfl
  | cons r rs ih =>
    simp only [dedupeFrom]
    split
    case isTrue hkeep =>
      -- the kept entry joins `seen`, which drops exactly its later copies
      rw [List.filter_cons, if_pos hkeep, List.eraseDups_cons, ih, List.filter_filter]
      congr 1
      apply congrArg
      apply List.filter_congr
      intro b _
      simp only [List.contains_cons, render_beq_render]
      cases b == r <;> simp
    case isFalse hdrop =>
      rw [List.filter_cons, if_neg hdrop, ih]

theorem dedupe_eq_eraseDups (rs : List Reference) :
    dedupe rs = (rs.filter isWritable).eraseDups := by
  rw [dedupe, dedupeFrom_eq_eraseDups]
  simp

theorem mem_dedupe {rs : List Reference} {r : Reference} :
    r ∈ dedupe rs ↔ r ∈ rs ∧ r.isWritable = true := by
  rw [dedupe_eq_eraseDups, List.mem_eraseDups, List.mem_filter]

theorem render_not_mem_of_mem_dedupeFrom {seen : List String} {rs : List Reference}
    {r : Reference} (h : r ∈ dedupeFrom seen rs) : r.render ∉ seen := by
  rw [dedupeFrom_eq_eraseDups, List.mem_eraseDups, List.mem_filter] at h
  have hkept : r.isWritable = true ∧ r.render ∉ seen := by simpa using h.2
  exact hkept.2

theorem nodup_map_render_dedupeFrom (seen : List String) (rs : List Reference) :
    ((dedupeFrom seen rs).map render).Nodup := by
  induction rs generalizing seen with
  | nil => exact List.nodup_nil
  | cons r rs ih =>
    simp only [dedupeFrom]
    split
    · rw [List.map_cons, List.nodup_cons]
      refine ⟨?_, ih _⟩
      intro hmem
      obtain ⟨r', hr', hrender⟩ := List.mem_map.mp hmem
      exact render_not_mem_of_mem_dedupeFrom hr' (by simp [hrender])
    · exact ih seen

theorem nodup_map_render_dedupe (rs : List Reference) : ((dedupe rs).map render).Nodup :=
  nodup_map_render_dedupeFrom [] rs

theorem render_eq_render_iff {r₁ r₂ : Reference} : r₁.render = r₂.render ↔ r₁ = r₂ :=
  ⟨render_inj, congrArg render⟩

theorem nodup_dedupe (rs : List Reference) : (dedupe rs).Nodup :=
  List.Pairwise.of_map render (fun _ _ hne heq => hne (congrArg render heq)) (nodup_map_render_dedupe rs)

theorem dedupe_prefix_append (rs more : List Reference) : dedupe rs <+: dedupe (rs ++ more) := by
  rw [dedupe_eq_eraseDups, dedupe_eq_eraseDups, List.filter_append, List.eraseDups_append]
  exact List.prefix_append _ _

/-!
## Position by position
-/

/-- The entries of `rs` kept at their first line: each writable entry whose
line no writable entry before it has. -/
def firstLines (rs : List Reference) : List Reference :=
  (rs.zipIdx.filter fun (e, i) =>
    e.isWritable && !(((rs.take i).filter isWritable).map render).contains e.render).map Prod.fst

theorem dedupe_append_singleton (rs : List Reference) (e : Reference) :
    dedupe (rs ++ [e]) = dedupe rs ++
      if e.isWritable && !(((rs.filter isWritable).map render).contains e.render) then [e] else [] := by
  rw [dedupe_eq_eraseDups, dedupe_eq_eraseDups, List.filter_append, List.eraseDups_append]
  congr 1
  have hmem : (((rs.filter isWritable).map render).contains e.render) = (rs.filter isWritable).elem e := by
    simp [render_eq_render_iff]
  by_cases hw : e.isWritable = true
  · rw [hmem]
    simp only [List.filter_cons, List.filter_nil, hw, if_true, List.removeAll]
    cases (rs.filter isWritable).elem e <;> rfl
  · simp [hw]

theorem firstLines_append_singleton (rs : List Reference) (e : Reference) :
    firstLines (rs ++ [e]) = firstLines rs ++
      if e.isWritable && !(((rs.filter isWritable).map render).contains e.render) then [e] else [] := by
  unfold firstLines
  rw [List.zipIdx_append, List.filter_append, List.map_append]
  congr 1
  · -- an entry before `e` looks only at entries before it
    congr 1
    apply List.filter_congr
    intro p hp
    obtain ⟨x, i⟩ := p
    have hi : i ≤ rs.length := by
      have := (List.mem_zipIdx hp).2.1
      omega
    simp only [List.take_append_of_le_length hi]
  · simp only [List.zipIdx_singleton, Nat.zero_add, List.take_left, List.filter_cons, List.filter_nil]
    split <;> rfl

theorem dedupe_eq_firstLines (rs : List Reference) : dedupe rs = firstLines rs := by
  induction rs using List.reverseRecOn with
  | nil => rfl
  | append_singleton rs e ih => rw [dedupe_append_singleton, firstLines_append_singleton, ih]

theorem dedupe_append_dedupe (xs ys : List Reference) : dedupe (xs ++ ys) = dedupe (dedupe xs ++ ys) := by
  have hwritable : (dedupe xs).filter isWritable = dedupe xs :=
    List.filter_eq_self.mpr fun _ h => isWritable_of_mem_dedupe h
  have hsame : ∀ r, r ∈ dedupe xs ↔ r ∈ xs.filter isWritable := by
    intro r
    rw [mem_dedupe, List.mem_filter]
  rw [dedupe_eq_eraseDups, dedupe_eq_eraseDups, List.filter_append, List.filter_append, hwritable,
    List.eraseDups_append, List.eraseDups_append, eraseDups_of_nodup (nodup_dedupe xs),
    removeAll_congr _ hsame, dedupe_eq_eraseDups]

theorem dedupe_dedupe (rs : List Reference) : dedupe (dedupe rs) = dedupe rs := by
  simpa using (dedupe_append_dedupe rs []).symm

/-- Deduplication keeps, position by position, each writable entry whose line
no writable entry before it has; a line names its reference, and the two
kinds of directive never share a line, so this is keeping the first copy of
each writable entry. The result is deduplicated already, its lines are
distinct and can all be written, and a prefix may be deduplicated first. -/
theorem dedupe_first_occurrence_laws :
    (∀ rs : List Reference, dedupe rs = firstLines rs) ∧
    (∀ r₁ r₂ : Reference, r₁.render = r₂.render ↔ r₁ = r₂) ∧
    (∀ name p : String, (package name).render ≠ (path p).render) ∧
    (∀ rs : List Reference, dedupe rs = (rs.filter isWritable).eraseDups) ∧
    (∀ rs : List Reference, dedupe (dedupe rs) = dedupe rs) ∧
    (∀ rs : List Reference, ((dedupe rs).map render).Nodup ∧ (dedupe rs).all isWritable = true) ∧
    (∀ xs ys : List Reference, dedupe (xs ++ ys) = dedupe (dedupe xs ++ ys)) := by
  refine ⟨dedupe_eq_firstLines, fun _ _ => render_eq_render_iff, render_package_ne_render_path,
    dedupe_eq_eraseDups, dedupe_dedupe, fun rs => ⟨nodup_map_render_dedupe rs, ?_⟩, dedupe_append_dedupe⟩
  rw [List.all_eq_true]
  exact fun _ h => isWritable_of_mem_dedupe h

end Reference

end TypeRefs
