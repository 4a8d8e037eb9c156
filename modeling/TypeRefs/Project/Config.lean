import TypeRefs.Declaration.Basic
import TypeRefs.Json.Read
import TypeRefs.Path.Basic
import TypeRefs.Prepare.Hook

/-!
# Project configuration

Every field is optional and unknown fields are skipped after their syntax is
checked; the object may also be an array of the fields in order. Decoding
reports the first problem with its place: a wrong type, a value out of
range, a field given twice (`_modules` is `internalModules`), or a syntax
error.
-/

namespace TypeRefs

/-- Extra references that the project adds to the declaration. -/
structure ExtraReferences where
  types : List String := []
  paths : List String := []
deriving Repr, Inhabited

/-- The project's configuration. -/
structure ProjectConfig where
  majorVersion : Option Nat := none
  coreModules : Option (List String) := none
  buildModules : List Json := []
  modules : List Json := []
  internalModules : List Json := []
  modulesDir : List Path := []
  declaration : Option Path := none
  references : ExtraReferences := {}
deriving Repr, Inhabited

namespace ProjectConfig

/-- The configuration file names looked for in the project root, in order. -/
def fileNames : List String := ["typeprep.config.json", ".typeprep.json"]

/-- The core modules of the third major version. -/
def coreModulesV3 : List String := ["@nuxt/kit", "@nuxt/app", "@nuxt/nitro"]

/-- The core modules of any other version. -/
def coreModulesDefault : List String := ["@nuxt/kit"]

/-- The core modules: the ones given, or those of the major version. -/
def effectiveCoreModules (c : ProjectConfig) : List String :=
  match c.coreModules with
  | some explicit => explicit
  | none => if c.majorVersion == some 3 then coreModulesV3 else coreModulesDefault

/-- The module identifiers to resolve: the core modules, then the string
entries of the build modules, modules and internal modules, in order. -/
def identifiers (c : ProjectConfig) : List String :=
  c.effectiveCoreModules ++ (c.buildModules ++ c.modules ++ c.internalModules).filterMap Json.str?

/-- Where the declaration file goes, relative to the root unless absolute;
the path is joined, not normalised. -/
def declarationPath (c : ProjectConfig) (root : Path) : Path :=
  root.join (c.declaration.getD ⟨defaultDeclarationName⟩)

/-- The hook that appends the extra references, package names first, then
paths. -/
def hook (c : ProjectConfig) : Hook :=
  Hook.extra c.references.types c.references.paths

end ProjectConfig

namespace Json

/-- The error for a value that does not start the expected type: the value is
read (for a scalar) to name it in the message. -/
def unexpectedHere (expected : String) : Reader SyntaxError := do
  let b ← peekOrNull
  let found : Except SyntaxError Unexpected ←
    if b == 110 then do
      eat
      pure ((← attempt (ident "ull".toUTF8.toList)).map fun _ => Unexpected.null)
    else if b == 116 then do
      eat
      pure ((← attempt (ident "rue".toUTF8.toList)).map fun _ => Unexpected.bool true)
    else if b == 102 then do
      eat
      pure ((← attempt (ident "alse".toUTF8.toList)).map fun _ => Unexpected.bool false)
    else if b == 45 then do
      eat
      pure ((← attempt (readNumber false)).map Unexpected.number)
    else if isDigitByte b then do
      pure ((← attempt (readNumber true)).map Unexpected.number)
    else if b == 34 then do
      eat
      pure ((← attempt readString).map Unexpected.string)
    else if b == 91 then pure (.ok .sequence)
    else if b == 123 then pure (.ok .map)
    else pure (.error (← errorAhead .expectedSomeValue))
  match found with
  | .ok u => fixPlace (invalidType u expected)
  | .error e => pure e

/-- Decodes a value that starts with a byte accepted by `accepts`, placing an
error without a place at the cursor; `expected` names the type in a message. -/
def decodeWith {α : Type} (expected : String) (accepts : UInt8 → Bool)
    (body : UInt8 → Reader α) : Reader α := do
  match ← whitespace with
  | none => failAhead .eofWhileParsingValue
  | some b =>
    let r ← attempt (if accepts b then body b else do throw (← unexpectedHere expected))
    match r with
    | .ok a => pure a
    | .error e => throw (← fixPlace e)

def decodeU32 : Reader Nat :=
  decodeWith "u32" (fun b => b == 45 || isDigitByte b) fun b => do
    let n ← if b == 45 then (do eat; readNumber false) else readNumber true
    match n with
    | .nat k => if k < Nat.pow 2 32 then pure k else throw (invalidValue (.number n) "u32")
    | .neg _ => throw (invalidValue (.number n) "u32")
    | .float _ => throw (invalidType (.number n) "u32")

/-- Decodes a string; `expected` names it in a message. -/
def decodeString (expected : String) : Reader String :=
  decodeWith expected (· == 34) fun _ => do eat; readString

/-- Reads the elements of an array with `elem`. -/
def decodeItems {α : Type} (elem : Reader α) (first : Bool) (acc : List α) :
    Nat → Reader (List α)
  | 0 => fail .recursionLimitExceeded
  | fuel + 1 => do
    match ← nextElement first with
    | none => pure acc.reverse
    | some _ =>
      let v ← elem
      decodeItems elem false (v :: acc) fuel

/-- Decodes an array whose elements `elem` decodes. -/
def decodeSeq {α : Type} (elem : Reader α) (fuel : Nat) : Reader (List α) :=
  decodeWith "a sequence" (· == 91) fun _ => container (decodeItems elem true [] fuel) endArray

/-- Decodes `null` as none, anything else with `inner`. -/
def decodeOption {α : Type} (inner : Reader α) : Reader (Option α) := do
  match ← whitespace with
  | some 110 => literal "ull"; pure none
  | _ => some <$> inner

/-- Decodes a structure from an object (`fromMap`) or an array (`fromSeq`). -/
def decodeStruct {α : Type} (name : String) (fromSeq fromMap : Reader α) : Reader α :=
  decodeWith ("struct " ++ name) (fun b => b == 91 || b == 123) fun b =>
    if b == 91 then container fromSeq endArray else container fromMap endObject

/-- The next element of an array read as a structure's field, or the field's
default at the end of the array; the flag says whether an element was read. -/
def seqField {α : Type} (first : Bool) (default : α) (decode : Reader α) : Reader (α × Bool) := do
  match ← nextElement first with
  | none => pure (default, first)
  | some _ => pure (← decode, false)

end Json

namespace ExtraReferences

open Json

inductive Field where
  | types
  | paths
deriving DecidableEq

def Field.ofKey : String → Option Field
  | "types" => some .types
  | "paths" => some .paths
  | _ => none

/-- The name of a field in messages. -/
def Field.name : Field → String
  | .types => "types"
  | .paths => "paths"

def decodeField (f : Field) (r : ExtraReferences) (fuel : Nat) : Reader ExtraReferences := do
  let xs ← decodeSeq (decodeString "a string") fuel
  match f with
  | .types => pure { r with types := xs }
  | .paths => pure { r with paths := xs }

/-- Decodes the fields of an object, refusing a field given twice. -/
def decodeFields (first : Bool) (seen : List Field) (r : ExtraReferences) :
    Nat → Reader ExtraReferences
  | 0 => fail .recursionLimitExceeded
  | fuel + 1 => do
    match ← nextKey first with
    | none => pure r
    | some key =>
      match Field.ofKey key with
      | some f =>
        if seen.contains f then throw (duplicateField f.name)
        colon
        let r ← decodeField f r fuel
        decodeFields false (f :: seen) r fuel
      | none =>
        colon
        skipValue [] none fuel
        decodeFields false seen r fuel

/-- Decodes the fields from an array, in order. -/
def decodeSeqForm (fuel : Nat) : Reader ExtraReferences := do
  let (types, first) ← seqField true [] (decodeSeq (decodeString "a string") fuel)
  let (paths, _) ← seqField first [] (decodeSeq (decodeString "a string") fuel)
  pure { types, paths }

def decode (fuel : Nat) : Reader ExtraReferences :=
  decodeStruct "ExtraReferences" (decodeSeqForm fuel) (decodeFields true [] {} fuel)

end ExtraReferences

namespace ProjectConfig

open Json

inductive Field where
  | majorVersion
  | coreModules
  | buildModules
  | modules
  | internalModules
  | modulesDir
  | declaration
  | references
deriving DecidableEq

/-- The field a key names; `_modules` is another name of the internal modules. -/
def Field.ofKey : String → Option Field
  | "majorVersion" => some .majorVersion
  | "coreModules" => some .coreModules
  | "buildModules" => some .buildModules
  | "modules" => some .modules
  | "internalModules" => some .internalModules
  | "_modules" => some .internalModules
  | "modulesDir" => some .modulesDir
  | "declaration" => some .declaration
  | "references" => some .references
  | _ => none

/-- The name of a field in messages. -/
def Field.name : Field → String
  | .majorVersion => "majorVersion"
  | .coreModules => "coreModules"
  | .buildModules => "buildModules"
  | .modules => "modules"
  | .internalModules => "internalModules"
  | .modulesDir => "modulesDir"
  | .declaration => "declaration"
  | .references => "references"

def decodeField (f : Field) (c : ProjectConfig) (fuel : Nat) : Reader ProjectConfig :=
  match f with
  | .majorVersion => do pure { c with majorVersion := ← decodeOption decodeU32 }
  | .coreModules => do
    pure { c with coreModules := ← decodeOption (decodeSeq (decodeString "a string") fuel) }
  | .buildModules => do pure { c with buildModules := ← decodeSeq (readValue fuel) fuel }
  | .modules => do pure { c with modules := ← decodeSeq (readValue fuel) fuel }
  | .internalModules => do pure { c with internalModules := ← decodeSeq (readValue fuel) fuel }
  | .modulesDir => do
    let ds ← decodeSeq (decodeString "path string") fuel
    pure { c with modulesDir := ds.map Path.mk }
  | .declaration => do
    let d ← decodeOption (decodeString "path string")
    pure { c with declaration := d.map Path.mk }
  | .references => do pure { c with references := ← ExtraReferences.decode fuel }

/-- Decodes the fields of an object, refusing a field given twice. -/
def decodeFields (first : Bool) (seen : List Field) (c : ProjectConfig) :
    Nat → Reader ProjectConfig
  | 0 => fail .recursionLimitExceeded
  | fuel + 1 => do
    match ← nextKey first with
    | none => pure c
    | some key =>
      match Field.ofKey key with
      | some f =>
        if seen.contains f then throw (duplicateField f.name)
        colon
        let c ← decodeField f c fuel
        decodeFields false (f :: seen) c fuel
      | none =>
        colon
        skipValue [] none fuel
        decodeFields false seen c fuel

def fieldOrder : List Field :=
  [.majorVersion, .coreModules, .buildModules, .modules, .internalModules, .modulesDir,
    .declaration, .references]

/-- Decodes the fields from an array, in order, each missing one keeping its
default. -/
def decodeSeqForm (fuel : Nat) : Reader ProjectConfig := do
  let mut c : ProjectConfig := {}
  let mut first := true
  for f in fieldOrder do
    match ← nextElement first with
    | none => pure ()
    | some _ =>
      c ← decodeField f c fuel
      first := false
  pure c

def decode (fuel : Nat) : Reader ProjectConfig :=
  decodeStruct "ProjectConfig" (decodeSeqForm fuel) (decodeFields true [] {} fuel)

def parse (source : String) : Except SyntaxError ProjectConfig :=
  runReader (do let c ← decode (fuelFor source.utf8ByteSize); expectEnd; pure c) source

end ProjectConfig

end TypeRefs
