import TypeRefs.Declaration.Basic
import TypeRefs.Proofs.Reference.Dedupe

/-!
# The lines of a declaration file

A declaration is its header, a blank line and one directive per line
(`Declaration.render_eq`), and `Reference.ofLine?` reads back exactly the
directive lines. With a label free of line feeds and writable references,
splitting at line feeds gives the lines back
(`Declaration.render_splits_into_lines`); a line feed in the label adds lines
(`Declaration.label_line_feed_adds_lines`).
-/

namespace TypeRefs

namespace Reference

/-- The opening of a package directive, up to its value. -/
def typesOpening : String := "/// <reference types=\""

/-- The opening of a path directive, up to its value. -/
def pathOpening : String := "/// <reference path=\""

/-- What follows the value of a directive. -/
def closing : String := "\" />"

theorem render_package_eq (name : String) : (package name).render = typesOpening ++ name ++ closing := rfl

theorem render_path_eq (p : String) : (path p).render = pathOpening ++ p ++ closing := rfl

theorem newline_not_mem_render {r : Reference} (h : r.isWritable = true) : '\n' ∉ r.render.toList := by
  have hvalue : '\n' ∉ r.value.toList := by
    intro hmem
    simp only [isWritable, isWritableValue, Bool.and_eq_true, Bool.not_eq_true', List.any_eq_false] at h
    exact h.2 '\n' hmem (by simp)
  cases r with
  | package name =>
    rw [render_package]
    simp only [String.toList_append, List.mem_append, not_or]
    exact ⟨⟨by decide, hvalue⟩, by decide⟩
  | path p =>
    rw [render_path]
    simp only [String.toList_append, List.mem_append, not_or]
    exact ⟨⟨by decide, hvalue⟩, by decide⟩

/-!
## Reading a directive line
-/

/-- The text between `opening` and the closing of a directive, when the line
is made of the three in order. -/
def between? (opening line : String) : Option String :=
  let value := String.ofList ((line.toList.drop opening.length).take
    (line.length - opening.length - closing.length))
  if opening ++ value ++ closing = line then some value else none

/-- The reference a directive line stands for. -/
def ofLine? (line : String) : Option Reference :=
  match between? typesOpening line with
  | some name => some (package name)
  | none => (between? pathOpening line).map path

theorem between?_append (opening value : String) :
    between? opening (opening ++ value ++ closing) = some value := by
  have hvalue : String.ofList (((opening ++ value ++ closing).toList.drop opening.length).take
      ((opening ++ value ++ closing).length - opening.length - closing.length)) = value := by
    rw [← String.toList_inj, String.toList_ofList]
    simp only [String.toList_append, List.append_assoc, ← String.length_toList, List.length_append]
    rw [List.drop_left, show opening.toList.length + (value.toList.length + closing.toList.length) -
      opening.toList.length - closing.toList.length = value.toList.length by omega, List.take_left]
  simp only [between?, hvalue, if_true]

theorem eq_of_between?_eq_some {opening line value : String} (h : between? opening line = some value) :
    line = opening ++ value ++ closing := by
  unfold between? at h
  dsimp only at h
  split at h
  · rename_i heq
    cases h
    exact heq.symm
  · cases h

theorem ofLine?_eq_some_iff {line : String} {r : Reference} : ofLine? line = some r ↔ line = r.render := by
  constructor
  · intro h
    unfold ofLine? at h
    split at h
    · rename_i name hname
      cases h
      exact eq_of_between?_eq_some hname
    · obtain ⟨p, hp, rfl⟩ := Option.map_eq_some_iff.mp h
      exact eq_of_between?_eq_some hp
  · rintro rfl
    cases r with
    | package name => simp [ofLine?, render_package_eq, between?_append]
    | path p =>
      -- a path line does not read as a package line, since the two lines differ
      have hnot : between? typesOpening (path p).render = none := by
        cases hb : between? typesOpening (path p).render with
        | none => rfl
        | some name =>
          have := eq_of_between?_eq_some hb
          rw [← render_package_eq] at this
          exact absurd this.symm (render_package_ne_render_path name p)
      unfold ofLine?
      rw [hnot, render_path_eq, between?_append]
      rfl

theorem ofLine?_render (r : Reference) : ofLine? r.render = some r := ofLine?_eq_some_iff.mpr rfl

theorem get?_two_render (r : Reference) : r.render.toList[2]? = some '/' := by
  cases r <;> simp [render_package_eq, render_path_eq, typesOpening, pathOpening]

theorem ofLine?_eq_none_of_get? {line : String} (h : line.toList[2]? ≠ some '/') : ofLine? line = none := by
  cases hr : ofLine? line with
  | none => rfl
  | some r =>
    rw [ofLine?_eq_some_iff] at hr
    subst hr
    exact absurd (get?_two_render r) h

end Reference

namespace Declaration

/-!
## Lines of the file
-/

theorem intercalate_newline_append_empty (first : String) (ls : List String) :
    "\n".intercalate (first :: (ls ++ [""])) = first ++ "\n" ++ String.join (ls.map (· ++ "\n")) := by
  induction ls generalizing first with
  | nil => simp [String.intercalate_cons_cons]
  | cons l ls ih =>
    rw [List.cons_append, String.intercalate_cons_cons, ih]
    simp [String.append_assoc]

theorem render_eq (d : Declaration) :
    d.render = d.header ++ "\n\n" ++ String.join (d.references.map fun r => r.render ++ "\n") := by
  rw [render, lines, List.cons_append, List.cons_append, String.intercalate_cons_cons,
    intercalate_newline_append_empty, List.map_map]
  have hbreak : ∀ x : String, "\n" ++ ("\n" ++ x) = "\n\n" ++ x := fun x => by
    rw [← String.append_assoc]
    rfl
  simp only [Function.comp_def, String.empty_append, String.append_assoc, hbreak]

theorem header_eq (d : Declaration) : d.header = "// Declarations auto generated by `" ++
    (d.generator ++ "`. Please do not manually modify this file.") := by
  rw [← String.append_assoc]
  rfl

theorem ofLine?_header (d : Declaration) : Reference.ofLine? d.header = none := by
  have hthird : "// Declarations auto generated by `".toList[2]? = some ' ' := by simp
  have hheader : d.header.toList[2]? = some ' ' := by
    rw [header_eq, String.toList_append, List.getElem?_append_left (by simp), hthird]
  exact Reference.ofLine?_eq_none_of_get? (by rw [hheader]; decide)

theorem newline_not_mem_header {d : Declaration} (h : '\n' ∉ d.generator.toList) : '\n' ∉ d.header.toList := by
  rw [header_eq]
  simp only [String.toList_append, List.mem_append, not_or]
  exact ⟨by decide, h, by decide⟩

theorem newline_not_mem_lines {d : Declaration} (hg : '\n' ∉ d.generator.toList)
    (hw : d.references.all Reference.isWritable = true) : ∀ l ∈ d.lines, '\n' ∉ l.toList := by
  intro l hl
  simp only [lines, List.cons_append, List.mem_cons, List.mem_append, List.mem_map, List.not_mem_nil,
    or_false] at hl
  rcases hl with rfl | rfl | ⟨r, hr, rfl⟩ | rfl
  · exact newline_not_mem_header hg
  · simp
  · exact Reference.newline_not_mem_render (List.all_eq_true.mp hw r hr)
  · simp

theorem splitOn_render {d : Declaration} (h : ∀ l ∈ d.lines, '\n' ∉ l.toList) :
    (d.render.toList.splitOn '\n').map String.ofList = d.lines := by
  have hsplit : d.render.toList.splitOn '\n' = d.lines.map String.toList := by
    rw [render, String.toList_intercalate]
    apply List.splitOn_intercalate
    · simp only [List.mem_map]
      rintro _ ⟨l, hl, rfl⟩
      exact h l hl
    · simp [lines]
  rw [hsplit, List.map_map]
  simp [Function.comp_def]

theorem filterMap_ofLine?_lines (d : Declaration) : d.lines.filterMap Reference.ofLine? = d.references := by
  have hempty : Reference.ofLine? "" = none := Reference.ofLine?_eq_none_of_get? (by simp)
  simp only [lines, List.cons_append, List.filterMap_cons, ofLine?_header, hempty, List.filterMap_append,
    List.filterMap_map, List.filterMap_nil, List.append_nil]
  have hread : (Reference.ofLine? ∘ Reference.render) = some := funext Reference.ofLine?_render
  rw [hread, List.filterMap_some]

/-- A declaration file is its header, a blank line and one line per directive,
for every label and every list of references; a line reads as a reference
exactly when it is that reference's directive. When the label has no line
feed and every reference can be written, splitting the text at line feeds
gives exactly the header, an empty line, the directives in order and a last
empty piece, three pieces more than there are references, and reading the
pieces back as directives gives the references. -/
theorem render_splits_into_lines (g : String) (es : List Reference) :
    (Declaration.mk g es).render =
        (Declaration.mk g es).header ++ "\n\n" ++ String.join (es.map fun e => e.render ++ "\n") ∧
      (∀ (line : String) (r : Reference), Reference.ofLine? line = some r ↔ line = r.render) ∧
      ('\n' ∉ g.toList → es.all Reference.isWritable = true →
        ((Declaration.mk g es).render.toList.splitOn '\n').map String.ofList =
            (Declaration.mk g es).header :: "" :: es.map Reference.render ++ [""] ∧
          ((Declaration.mk g es).render.toList.splitOn '\n').length = es.length + 3 ∧
          (((Declaration.mk g es).render.toList.splitOn '\n').map String.ofList).filterMap
            Reference.ofLine? = es) := by
  refine ⟨render_eq _, fun _ _ => Reference.ofLine?_eq_some_iff, fun hg hw => ?_⟩
  have hsplit := splitOn_render (newline_not_mem_lines (d := ⟨g, es⟩) hg hw)
  refine ⟨hsplit, ?_, ?_⟩
  · have hlen := congrArg List.length hsplit
    rw [List.length_map] at hlen
    rw [hlen, length_lines]
  · rw [hsplit]
    exact filterMap_ofLine?_lines _

theorem render_splits_into_lines_exact :
    '\n' ∉ "typeprep prepare".toList ∧
      [Reference.package "@core/kit", .path "./extra.d.ts"].all Reference.isWritable = true ∧
      ((Declaration.mk "typeprep prepare" [.package "@core/kit", .path "./extra.d.ts"]).render.toList.splitOn
        '\n').length = 5 :=
  have hg : '\n' ∉ "typeprep prepare".toList := by decide
  have hw : [Reference.package "@core/kit", .path "./extra.d.ts"].all Reference.isWritable = true := by
    decide +kernel
  ⟨hg, hw, ((render_splits_into_lines _ _).2.2 hg hw).2.1⟩

/-- A label that holds line feeds puts its pieces on lines of their own: with
no references, the text splits into five pieces, not three, and one of them
reads as a package directive. -/
theorem label_line_feed_adds_lines :
    let d : Declaration := ⟨"x\n/// <reference types=\"y\" />\n", []⟩
    (d.render.toList.splitOn '\n').length = 5 ∧
      ((d.render.toList.splitOn '\n').map String.ofList).filterMap Reference.ofLine? = [.package "y"] := by
  decide +kernel

end Declaration

end TypeRefs
