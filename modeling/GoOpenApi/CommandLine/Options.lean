import GoOpenApi.Files.Path

/-!
The words of a command line. Options take their value from the same word, behind an equals sign,
or from the next one; switches can stand together behind one dash; two dashes make all words after
them operands.
-/

namespace GoOpenApi.CommandLine

/-- Why a command line is not carried out. -/
inductive UsageFault where
  | unknownArgument
  /-- A value is missing, empty or none of those allowed. -/
  | invalidValue
  /-- An argument that may be given once is repeated. -/
  | repeated
  | missingArgument
  /-- A switch has a value. -/
  | unwantedValue
  | help
  | version
  deriving DecidableEq, Repr

inductive Slot where
  | services
  | output
  | format
  | root
  | vendor
  | interface
  | model
  deriving DecidableEq, Repr

inductive Switch where
  | verbose
  | help
  | version
  deriving DecidableEq, Repr

/-- What is given apart from the operand. -/
structure Settings where
  output? : Option Path := none
  format? : Option Format := none
  root? : Option Path := none
  vendor? : Option Path := none
  interfaces : List String := []
  model? : Option Path := none
  verbose : Bool := false

structure Options extends Settings where
  services : Path

namespace Options

/-- The file of the document, by default beside the services. -/
def output (o : Options) : Path := o.output?.getD (o.services.join ⟨"swagger.yaml"⟩)

/-- The form of the document, by default that of the file's name. -/
def format (o : Options) : Format := o.format?.getD (.ofPath o.output)

end Options

/-- A flag opens an option or is a switch. -/
def longFlag? : String → Option (Slot ⊕ Switch)
  | "output" => some (.inl .output)
  | "format" => some (.inl .format)
  | "root" => some (.inl .root)
  | "vendor" => some (.inl .vendor)
  | "iface" => some (.inl .interface)
  | "model" => some (.inl .model)
  | "verbose" => some (.inr .verbose)
  | "help" => some (.inr .help)
  | "version" => some (.inr .version)
  | _ => none

def shortFlag? : Char → Option (Slot ⊕ Switch)
  | 'o' => some (.inl .output)
  | 'f' => some (.inl .format)
  | 'v' => some (.inr .verbose)
  | 'h' => some (.inr .help)
  | 'V' => some (.inr .version)
  | _ => none

/-- A command line of which some words have been read. A value is looked at when the next argument
comes; until then it waits, or is waited for. -/
structure Reading where
  services? : Option Path := none
  settings : Settings := {}
  waiting : Option (Slot × Option String) := none
  /-- The operand has been given. -/
  hasOperand : Bool := false

namespace Reading

def formatValue (s : String) : Except UsageFault Format :=
  if s = "yaml" then .ok .yaml else if s = "json" then .ok .json else .error .invalidValue

def pathValue (s : String) : Except UsageFault Path :=
  if s.isEmpty then .error .invalidValue else .ok ⟨s⟩

/-- A value for what may be given once. -/
def once (old : Option α) (value : Except UsageFault α) : Except UsageFault (Option α) :=
  if old.isSome then .error .repeated else value.map some

def fill (r : Reading) (value : String) : Slot → Except UsageFault Reading
  | .services => do return { r with services? := ← once r.services? (pathValue value) }
  | .output => do
    return { r with settings.output? := ← once r.settings.output? (pathValue value) }
  | .format => do
    return { r with settings.format? := ← once r.settings.format? (formatValue value) }
  | .root => do return { r with settings.root? := ← once r.settings.root? (pathValue value) }
  | .vendor => do
    return { r with settings.vendor? := ← once r.settings.vendor? (pathValue value) }
  | .interface => .ok { r with settings.interfaces := r.settings.interfaces ++ [value] }
  | .model => do return { r with settings.model? := ← once r.settings.model? (pathValue value) }

def settle (r : Reading) : Except UsageFault Reading :=
  match r.waiting with
  | none => .ok r
  | some (_, none) => .error .invalidValue
  | some (slot, some value) => { r with waiting := none }.fill value slot

def press (r : Reading) (switch : Switch) : Except UsageFault Reading := do
  let r ← r.settle
  match switch with
  | .verbose =>
    if r.settings.verbose then throw .repeated else return { r with settings.verbose := true }
  | .help => throw .help
  | .version => throw .version

def openSlot (r : Reading) (slot : Slot) : Option String → Except UsageFault Reading
  | some value => do (← r.settle).fill value slot
  | none => do return { ← r.settle with waiting := some (slot, none) }

def long (r : Reading) (cs : List Char) : Except UsageFault Reading :=
  let (name, value?) := match Text.cutList (· == '=') cs with
    | some (name, value) => (name, some (String.ofList value))
    | none => (cs, none)
  match longFlag? (String.ofList name), value? with
  | none, _ => .error .unknownArgument
  | some (.inl slot), value? => r.openSlot slot value?
  | some (.inr _), some _ => .error .unwantedValue
  | some (.inr switch), none => r.press switch

/-- The letters behind a dash. What follows the letter of an option is its value. -/
def short : List Char → Reading → Except UsageFault Reading
  | [], r => .ok r
  | c :: cs, r =>
    match shortFlag? c with
    | none => .error .unknownArgument
    | some (.inr switch) => do short cs (← r.press switch)
    | some (.inl slot) =>
      r.openSlot slot (match cs with
        | [] => none
        | '=' :: value => some (String.ofList value)
        | value => some (String.ofList value))

def operand (r : Reading) (word : String) : Except UsageFault Reading := do
  if r.hasOperand then throw .unknownArgument
  return { ← r.settle with waiting := some (.services, some word), hasOperand := true }

/-- A word that is no flag: the value that is waited for, or the operand. -/
def plain (r : Reading) (word : String) : Except UsageFault Reading :=
  match r.waiting with
  | some (slot, none) => .ok { r with waiting := some (slot, some word) }
  | _ => r.operand word

/-- All words; those after two dashes are operands. -/
def words : List String → Reading → Except UsageFault Reading
  | [], r => .ok r
  | word :: rest, r =>
    match word.toList with
    | ['-', '-'] => rest.foldlM operand r
    | '-' :: '-' :: cs => do words rest (← r.long cs)
    | '-' :: c :: cs => do words rest (← short (c :: cs) r)
    | _ => do words rest (← r.plain word)

end Reading

def parse (args : List String) : Except UsageFault Options := do
  let r ← (← Reading.words args {}).settle
  match r.services? with
  | some services => return { r.settings with services }
  | none => throw .missingArgument

end GoOpenApi.CommandLine
