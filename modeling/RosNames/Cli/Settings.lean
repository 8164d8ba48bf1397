import RosNames.Cli.Stop
import RosNames.Kind

/-!
# Settings read from the arguments

Arguments are read from left to right. What an option or a run of names has collected is pending
until something else begins, and is judged only then, when it is settled; so of two faults in one
command line the one that is settled first is reported.
-/

namespace RosNames.Cli

structure Settings where
  kind : Kind
  json : Bool
  allowTooLong : Bool
  names : List String
  deriving DecidableEq, Repr

inductive Pending
  | nothing
  /-- The option for the kind; without a value it takes the next plain argument for one. -/
  | kind (value : Option Bytes)
  | names (values : List Bytes)
  deriving DecidableEq, Repr

structure Reader where
  kind : Option Kind := none
  flags : List Flag := []
  names : List String := []
  pending : Pending := .nothing
  deriving DecidableEq, Repr

def kindNamed? (value : Bytes) : Option Kind :=
  Kind.all.find? fun k => Utf8.encode k.keyword == value

namespace Reader

def settle (r : Reader) : Except Stop Reader :=
  match r.pending with
  | .nothing => .ok r
  | .names values =>
    match values.mapM Utf8.decode? with
    | some names => .ok { r with names := r.names ++ names, pending := .nothing }
    | none => .error (.refused .invalidUtf8)
  | .kind none => .error (.refused .missingKind)
  | .kind (some value) =>
    if r.kind.isSome then .error (.refused .repeatedKind)
    else if value.isEmpty then .error (.refused .missingKind)
    else match kindNamed? value with
      | some k => .ok { r with kind := some k, pending := .nothing }
      | none => .error (.refused (.unknownKind (Utf8.lossy value)))

def addName (r : Reader) (value : Bytes) : Except Stop Reader :=
  match r.pending with
  | .names values => .ok { r with pending := .names (values ++ [value]) }
  | _ => do
    let r ← r.settle
    return { r with pending := .names [value] }

/-- Read an argument before the end of the options. A kind with its value attached is settled at
once; what is no option at all is refused before anything is settled. -/
def step (r : Reader) : Argument → Except Stop Reader
  | .kind value => do
    let r ← r.settle
    let r := { r with pending := .kind value }
    if value.isSome then r.settle else return r
  | .flag f => do
    let r ← r.settle
    if f ∈ r.flags then .error (.refused (.repeatedFlag f))
    else return { r with flags := f :: r.flags }
  | .help => do
    let _ ← r.settle
    .error .help
  | .version => do
    let _ ← r.settle
    .error .version
  | .surplusValue option value => .error (.refused (.surplusValue option value))
  | .unexpected spelling => .error (.refused (.unexpected spelling))
  | .plain value =>
    match r.pending with
    | .kind none => return { r with pending := .kind (some value) }
    | _ => r.addName value

/-- Read arguments in order; all after the end of the options are names. -/
def read (r : Reader) : List Bytes → Except Stop Reader
  | [] => .ok r
  | a :: rest =>
    if a = endOfOptions then rest.foldlM addName r
    else do
      let r ← r.step (Argument.ofBytes a)
      r.read rest

end Reader

def Settings.ofArguments (args : List Bytes) : Except Stop Settings := do
  let r ← Reader.read {} args
  let r ← r.settle
  if r.names.isEmpty then .error (.refused .missingNames)
  else return {
    kind := r.kind.getD default
    json := r.flags.contains .json
    allowTooLong := r.flags.contains .allowTooLong
    names := r.names }

end RosNames.Cli
