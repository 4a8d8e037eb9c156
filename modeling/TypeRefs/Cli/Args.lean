/-!
# Reading the command line

`typeprep [OPTIONS] [COMMAND]` with the global `-v`, `--json` and `--cwd`,
before or after the command (the later one wins). Tokens are read left to
right; a token starting with `-` is never a value, and after `--` all are
positional. Help, the version or a mistake stops reading at once.
-/

namespace TypeRefs

namespace Cli

structure Globals where
  verbose : Nat := 0
  json : Bool := false
  cwd : Option String := none
deriving DecidableEq, Repr, Inhabited

structure PrepareArgs where
  root : String := "."
  config : Option String := none
  modulesDir : List String := []
  modules : List String := []
  output : Option String := none
  generator : Option String := none
deriving DecidableEq, Repr, Inhabited

inductive Command where
  | version
  | prepare (args : PrepareArgs)
deriving DecidableEq, Repr, Inhabited

/-- The command whose help is asked for. -/
inductive HelpTopic where
  | main
  | version
  | prepare
  | help
deriving DecidableEq, Repr, Inhabited

/-- What the command line asks for; a run with no command shows the version. -/
inductive Request where
  | run (globals : Globals) (command : Option Command)
  | help (topic : HelpTopic)
  | version
  | usage (message : String)
deriving DecidableEq, Repr, Inhabited

/-- How a token reads: `--` alone, `--name` or `--name=value`, `-abc`, or
anything else (`-` included). -/
inductive Token where
  | escape
  | long (name : String) (value : Option String)
  | short (letters : List Char)
  | plain (text : String)
deriving DecidableEq, Repr, Inhabited

def Token.ofText (t : String) : Token :=
  match t.toList with
  | ['-', '-'] => .escape
  | '-' :: '-' :: rest =>
    match rest.span (· != '=') with
    | (name, []) => .long (String.ofList name) none
    | (name, _ :: value) => .long (String.ofList name) (some (String.ofList value))
  | '-' :: c :: rest => .short (c :: rest)
  | _ => .plain t

/-- Whether a token can be the value of an option. -/
def isValue (t : String) : Bool :=
  match Token.ofText t with
  | .plain _ => true
  | _ => false

/-- The value of an option, the attached one or the next token, with how
many of the following tokens it used. -/
def takeValue (name : String) (attached : Option String) (rest : List String) :
    Except String (String × Nat) :=
  match attached, rest with
  | some v, _ => .ok (v, 0)
  | none, t :: _ => if isValue t then .ok (t, 1) else .error ("a value is required for " ++ name)
  | none, [] => .error ("a value is required for " ++ name)

/-- A path value may not be empty. -/
def pathValue (name v : String) : Except String String :=
  if v.isEmpty then .error ("a value is required for " ++ name) else .ok v

/-- Sets an option that may be given once. -/
def setOnce (name : String) (slot : Option String) (v : String) : Except String (Option String) :=
  if slot.isSome then .error ("the argument " ++ name ++ " cannot be used multiple times")
  else .ok (some v)

/-- The global options given to one command, and whether `--json` was among
them. -/
structure Scope where
  globals : Globals := {}
  seenJson : Bool := false
deriving Inhabited

/-- What reading one token found: the state to go on with and how many more
tokens it used, or the request to stop with. -/
inductive Step (α : Type) where
  | next (state : α) (used : Nat)
  | stop (r : Request)

/-- Applies a global long option; none when the name is not a global one. -/
def globalLong (s : Scope) (name : String) (attached : Option String) (rest : List String) :
    Option (Except String (Scope × Nat)) :=
  match name with
  | "verbose" =>
    some (if attached.isSome then .error "unexpected value for --verbose"
      else .ok ({ s with globals.verbose := s.globals.verbose + 1 }, 0))
  | "json" =>
    some (if attached.isSome then .error "unexpected value for --json"
      else if s.seenJson then .error "the argument --json cannot be used multiple times"
      else .ok (⟨{ s.globals with json := true }, true⟩, 0))
  | "cwd" =>
    some (do
      let (v, used) ← takeValue "--cwd" attached rest
      let v ← pathValue "--cwd" v
      let cwd ← setOnce "--cwd" s.globals.cwd v
      pure ({ s with globals.cwd := cwd }, used))
  | _ => none

/-- Merges the global options given to a command into those given before it:
an option given to the command wins. -/
def Globals.merge (outer : Globals) (inner : Scope) : Globals :=
  { verbose := if inner.globals.verbose > 0 then inner.globals.verbose else outer.verbose,
    json := inner.seenJson || outer.json,
    cwd := if inner.globals.cwd.isSome then inner.globals.cwd else outer.cwd }

/-- Reads the letters of a short cluster made of counted flags and flags that
stop reading (`stops` gives what each of those asks for). -/
def flagCluster (s : Scope) (stops : Char → Option Request) : List Char → Except String (Step Scope)
  | [] => .ok (.next s 0)
  | 'v' :: more => flagCluster { s with globals.verbose := s.globals.verbose + 1 } stops more
  | c :: _ =>
    match stops c with
    | some r => .ok (.stop r)
    | none => .error ("unexpected argument -" ++ String.singleton c)

/-- Reads the rest of the command line after `help`. -/
def readHelp (topics : List String) : Request :=
  if !topics.all isValue then .usage "unexpected argument"
  else
    match topics with
    | [] => .help .main
    | [t] =>
      if t == "version" then .help .version
      else if t == "prepare" then .help .prepare
      else if t == "help" then .help .help
      else .usage ("unrecognized subcommand " ++ t)
    | _ :: extra :: _ => .usage ("unrecognized subcommand " ++ extra)

def versionStep (s : Scope) (t : String) (rest : List String) : Except String (Step Scope) :=
  match Token.ofText t with
  | .escape => if rest.isEmpty then .ok (.next s 0) else .error "unexpected argument"
  | .plain _ => .error ("unexpected argument " ++ t)
  | .long "help" none => .ok (.stop (.help .version))
  | .long name attached =>
    match globalLong s name attached rest with
    | some r => r.map fun (s, used) => .next s used
    | none => .error ("unexpected argument --" ++ name)
  | .short letters => flagCluster s (fun c => if c == 'h' then some (.help .version) else none) letters

def readVersion (outer : Globals) (s : Scope) : List String → Request
  | [] => .run (outer.merge s) (some .version)
  | t :: rest =>
    match versionStep s t rest with
    | .error m => .usage m
    | .ok (.stop r) => r
    | .ok (.next s used) => readVersion outer s (rest.drop used)
termination_by ts => ts.length
decreasing_by simp only [List.length_drop, List.length_cons]; omega

/-- The state of reading `prepare`: its arguments, its global options,
whether the root was given and whether `--` was seen. -/
structure PrepareScope where
  args : PrepareArgs := {}
  scope : Scope := {}
  rootGiven : Bool := false
  escaped : Bool := false
deriving Inhabited

/-- Applies a value-taking option of `prepare`, by its long name; none when
the name is not one of them. -/
def prepareOption (a : PrepareArgs) (name v : String) : Option (Except String PrepareArgs) :=
  match name with
  | "config" => some do
    let v ← pathValue "--config" v
    let config ← setOnce "--config" a.config v
    pure { a with config }
  | "modules-dir" => some do
    let v ← pathValue "--modules-dir" v
    pure { a with modulesDir := a.modulesDir ++ [v] }
  | "module" => some (.ok { a with modules := a.modules ++ [v] })
  | "output" => some do
    let v ← pathValue "--output" v
    let output ← setOnce "--output" a.output v
    pure { a with output }
  | "generator" => some do
    let generator ← setOnce "--generator" a.generator v
    pure { a with generator }
  | _ => none

/-- Whether a long name is a value-taking option of `prepare`. -/
def isPrepareOption (name : String) : Bool :=
  (prepareOption {} name "").isSome

/-- The long name of a value-taking short option of `prepare`. -/
def prepareShortName : Char → Option String
  | 'c' => some "config"
  | 'm' => some "module"
  | 'o' => some "output"
  | _ => none

/-- Applies a value-taking option of `prepare` whose value is attached or in
the next token. -/
def prepareValued (p : PrepareScope) (label name : String) (attached : Option String)
    (rest : List String) : Except String (Step PrepareScope) := do
  let (v, used) ← takeValue label attached rest
  match prepareOption p.args name v with
  | some r => pure (.next { p with args := ← r } used)
  | none => throw ("unexpected argument " ++ label)

/-- Reads a short cluster of `prepare`: counted flags, help, or one
value-taking option that takes the rest of the cluster or the next token. -/
def prepareShort (p : PrepareScope) (rest : List String) : List Char → Except String (Step PrepareScope)
  | [] => .ok (.next p 0)
  | 'v' :: more =>
    prepareShort { p with scope.globals.verbose := p.scope.globals.verbose + 1 } rest more
  | 'h' :: _ => .ok (.stop (.help .prepare))
  | c :: more =>
    match prepareShortName c with
    | none => .error ("unexpected argument -" ++ String.singleton c)
    | some name =>
      let attached := match more with
        | [] => none
        | '=' :: v => some (String.ofList v)
        | v => some (String.ofList v)
      prepareValued p ("-" ++ String.singleton c) name attached rest

/-- Takes a positional value of `prepare`: the root, once. -/
def prepareRoot (p : PrepareScope) (t : String) : Except String (Step PrepareScope) :=
  if p.rootGiven then .error ("unexpected argument " ++ t)
  else do
    let v ← pathValue "[ROOT]" t
    pure (.next { p with args.root := v, rootGiven := true } 0)

def prepareStep (p : PrepareScope) (t : String) (rest : List String) : Except String (Step PrepareScope) :=
  if p.escaped then prepareRoot p t
  else
    match Token.ofText t with
    | .escape => .ok (.next { p with escaped := true } 0)
    | .plain _ => prepareRoot p t
    | .long "help" none => .ok (.stop (.help .prepare))
    | .long name attached =>
      match globalLong p.scope name attached rest with
      | some r => r.map fun (s, used) => .next { p with scope := s } used
      | none =>
        if isPrepareOption name then prepareValued p ("--" ++ name) name attached rest
        else .error ("unexpected argument --" ++ name)
    | .short letters => prepareShort p rest letters

def readPrepare (outer : Globals) (p : PrepareScope) : List String → Request
  | [] => .run (outer.merge p.scope) (some (.prepare p.args))
  | t :: rest =>
    match prepareStep p t rest with
    | .error m => .usage m
    | .ok (.stop r) => r
    | .ok (.next p used) => readPrepare outer p (rest.drop used)
termination_by ts => ts.length
decreasing_by simp only [List.length_drop, List.length_cons]; omega

/-- What the token before the command leads to. -/
inductive MainStep where
  | next (s : Scope) (used : Nat)
  | command (name : String)
  | stop (r : Request)

def mainStep (s : Scope) (t : String) (rest : List String) : Except String MainStep :=
  match Token.ofText t with
  | .escape => if rest.isEmpty then .ok (.next s 0) else .error "unexpected argument"
  | .plain name => .ok (.command name)
  | .long "help" none => .ok (.stop (.help .main))
  | .long "version" none => .ok (.stop .version)
  | .long name attached =>
    match globalLong s name attached rest with
    | some r => r.map fun (s, used) => .next s used
    | none => .error ("unexpected argument --" ++ name)
  | .short letters =>
    (flagCluster s (fun c => if c == 'h' then some (.help .main)
      else if c == 'V' then some .version else none) letters).map fun
      | .next s used => .next s used
      | .stop r => .stop r

/-- Reads the command line up to the command. -/
def readMain (s : Scope) : List String → Request
  | [] => .run s.globals none
  | t :: rest =>
    match mainStep s t rest with
    | .error m => .usage m
    | .ok (.stop r) => r
    | .ok (.command name) =>
      if name == "prepare" then readPrepare s.globals {} rest
      else if name == "version" then readVersion s.globals {} rest
      else if name == "help" then readHelp rest
      else .usage ("unrecognized subcommand " ++ name)
    | .ok (.next s used) => readMain s (rest.drop used)
termination_by ts => ts.length
decreasing_by simp only [List.length_drop, List.length_cons]; omega

/-- Reads a command line (without the program name). -/
def parse (args : List String) : Request :=
  readMain {} args

end Cli

end TypeRefs
