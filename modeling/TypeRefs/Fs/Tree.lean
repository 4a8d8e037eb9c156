/-!
# The filesystem as a table

A table from locations, the names from the root down, to what they hold. The
root, the empty location, is always a directory and is not in the table.
-/

namespace TypeRefs

/-- What a name in the filesystem holds: a regular file with its bytes and its
modification time in milliseconds, a directory, or a link with its target text. -/
inductive Node where
  | file (bytes : List UInt8) (mtime : Nat)
  | dir
  | link (target : String)
deriving DecidableEq, Repr, Inhabited

/-- A physical location: the names from the root down. -/
abbrev Location := List String

/-- A filesystem: each entry below the root with what it holds. -/
structure Tree where
  entries : List (Location × Node)
deriving Repr, Inhabited

namespace Tree

def empty : Tree := ⟨[]⟩

/-- What a location holds, if anything; the root is a directory. -/
def get? (t : Tree) (loc : Location) : Option Node :=
  if loc.isEmpty then some .dir else (t.entries.find? (·.1 == loc)).map (·.2)

/-- Puts a node at a location, replacing what was there. -/
def set (t : Tree) (loc : Location) (n : Node) : Tree :=
  ⟨t.entries.filter (·.1 != loc) ++ [(loc, n)]⟩

/-- Removes the entry at a location, and nothing below it. -/
def erase (t : Tree) (loc : Location) : Tree :=
  ⟨t.entries.filter (·.1 != loc)⟩

/-- Removes a location and everything below it. -/
def eraseTree (t : Tree) (loc : Location) : Tree :=
  ⟨t.entries.filter (fun e => !loc.isPrefixOf e.1)⟩

/-- The entries strictly below a location, with their locations relative to it. -/
def below (t : Tree) (loc : Location) : List (Location × Node) :=
  t.entries.filterMap fun e =>
    if loc.isPrefixOf e.1 && loc.length < e.1.length then some (e.1.drop loc.length, e.2) else none

@[simp] theorem get?_root (t : Tree) : t.get? [] = some .dir := rfl

theorem find?_const_false {α : Type} (l : List α) : l.find? (fun _ => false) = none :=
  List.find?_eq_none.2 (by simp)

theorem get?_set_self (t : Tree) {loc : Location} (n : Node) (h : loc ≠ []) :
    (t.set loc n).get? loc = some n := by
  simp [get?, set, List.find?_append, h, find?_const_false]

theorem get?_set_of_ne (t : Tree) {loc other : Location} (n : Node) (h : other ≠ loc) :
    (t.set loc n).get? other = t.get? other := by
  simp only [get?, set]
  split
  · rfl
  · have hp : (fun a : Location × Node => !decide (a.fst = loc) && decide (a.fst = other)) =
        (fun a => a.fst == other) := by
      funext a
      by_cases ha : a.1 = other <;> simp [ha, h]
    simp [List.find?_append, List.find?_filter, hp, Ne.symm h]

theorem get?_erase_self (t : Tree) {loc : Location} (h : loc ≠ []) :
    (t.erase loc).get? loc = none := by
  simp [get?, erase, List.find?_filter, h, List.find?_eq_none]

theorem get?_erase_of_ne (t : Tree) {loc other : Location} (h : other ≠ loc) :
    (t.erase loc).get? other = t.get? other := by
  simp only [get?, erase]
  split
  · rfl
  · have hp : (fun a : Location × Node => !decide (a.fst = loc) && decide (a.fst = other)) =
        (fun a => a.fst == other) := by
      funext a
      by_cases ha : a.1 = other <;> simp [ha, h]
    simp [List.find?_filter, hp]

/-- The longest link target, which bounds how far one link can send a lookup. -/
def longestTarget (t : Tree) : Nat :=
  t.entries.foldl (fun m e => match e.2 with
    | .link target => max m target.length
    | _ => m) 0

end Tree

end TypeRefs
