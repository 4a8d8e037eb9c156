/-!
# Paths

A path keeps the text it was written with, for joining and printing; its
components follow Unix syntax (a leading slash is the root, empty pieces are
dropped, `.` counts only at the start of a relative path, `..` is a step up).
Lexical normalisation folds them through a stack that `..` pops.
-/

namespace TypeRefs

/-- One piece of a path: the root, a leading `.`, a `..`, or a name. -/
inductive Component where
  | root
  | cur
  | up
  | normal (name : String)
deriving DecidableEq, Repr, Inhabited

namespace Component

def text : Component → String
  | root => "/"
  | cur => "."
  | up => ".."
  | normal name => name

/-- The component a piece between slashes denotes; empty pieces and interior
`.` denote none. -/
def ofPiece (piece : String) : Option Component :=
  if piece = "" ∨ piece = "." then none
  else if piece = ".." then some up
  else some (normal piece)

def isNormal : Component → Bool
  | normal _ => true
  | _ => false

end Component

/-- The runs of characters between slashes, in order, empty runs included. -/
def slashFields : List Char → List (List Char)
  | [] => [[]]
  | c :: cs =>
    if c = '/' then [] :: slashFields cs
    else
      match slashFields cs with
      | [] => [[c]]
      | f :: fs => (c :: f) :: fs

/-- A path as written. -/
structure Path where
  text : String
deriving DecidableEq, Repr, Inhabited

namespace Path

def empty : Path := ⟨""⟩

def rootDir : Path := ⟨"/"⟩

/-- A path is absolute when it starts at the root. -/
def isAbsolute (p : Path) : Bool :=
  p.text.startsWith "/"

/-- The components of the text: the root first when the text starts with a
slash, a `.` only at the very start of a relative path, then the names and
`..` steps between slashes. -/
def components (p : Path) : List Component :=
  let body := (slashFields p.text.toList).filterMap
    (fun f => Component.ofPiece (String.ofList f))
  match p.text.toList with
  | '/' :: _ => .root :: body
  | ['.'] => [.cur]
  | '.' :: '/' :: _ => .cur :: body
  | _ => body

/-- The text of a list of components: the root, then the other components
separated by slashes. -/
def ofComponents (cs : List Component) : Path :=
  match cs with
  | .root :: rest => ⟨"/" ++ "/".intercalate (rest.map Component.text)⟩
  | rest => ⟨"/".intercalate (rest.map Component.text)⟩

/-- Appends `q` to `p`: an absolute `q` replaces `p`; otherwise a slash goes
between them unless `p` is empty or already ends with one. -/
def join (p q : Path) : Path :=
  if q.isAbsolute then q
  else if p.text.isEmpty || p.text.endsWith "/" then ⟨p.text ++ q.text⟩
  else ⟨p.text ++ "/" ++ q.text⟩

/-- The path without its last component; none for the root and the empty path. -/
def parent? (p : Path) : Option Path :=
  match p.components.getLast? with
  | none => none
  | some .root => none
  | some _ => some (ofComponents p.components.dropLast)

/-- The last component when it is a name. -/
def fileName? (p : Path) : Option String :=
  match p.components.getLast? with
  | some (.normal name) => some name
  | _ => none

/-- One step of lexical normalisation on a stack whose top is its head. -/
def normalStep (stack : List Component) : Component → List Component
  | .cur => stack
  | .up =>
    match stack with
    | .normal _ :: rest => rest
    | .root :: _ => stack
    | _ => .up :: stack
  | c => c :: stack

/-- The components left after lexical normalisation, in order. -/
def normalComponents (cs : List Component) : List Component :=
  (cs.foldl normalStep []).reverse

@[simp] theorem normalComponents_nil : normalComponents [] = [] := rfl

theorem normalComponents_append_single (cs : List Component) (c : Component) :
    normalComponents (cs ++ [c]) = (normalStep (normalComponents cs).reverse c).reverse := by
  simp [normalComponents]

theorem cur_not_mem_normalStep {stack : List Component} (h : Component.cur ∉ stack)
    (c : Component) : Component.cur ∉ normalStep stack c := by
  cases c with
  | cur => exact h
  | up =>
    simp only [normalStep]
    split
    · intro hm
      exact h (List.mem_cons_of_mem _ hm)
    · exact h
    · simp [h]
  | root => simp [normalStep, h]
  | normal n => simp [normalStep, h]

theorem cur_not_mem_normalComponents (cs : List Component) :
    Component.cur ∉ normalComponents cs := by
  have key : ∀ (xs stack : List Component), Component.cur ∉ stack →
      Component.cur ∉ xs.foldl normalStep stack := by
    intro xs
    induction xs with
    | nil => intro stack h; exact h
    | cons x xs ih => intro stack h; exact ih _ (cur_not_mem_normalStep h x)
  simpa [normalComponents] using key cs [] (by simp)

/-- Lexical normalisation: `.` dropped, `..` folded into the name before it,
kept at the start of a relative path and dropped at the root. -/
def normalize (p : Path) : Path :=
  ofComponents (normalComponents p.components)

end Path

end TypeRefs
