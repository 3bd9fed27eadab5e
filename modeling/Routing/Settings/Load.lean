/-
  LOADING SETTINGS FROM LAYERS.

  Three layers say what the settings are: a file, the environment, and overrides of the caller.

  1. **Keys.**  In the file and in the environment a field is set by the key that is a common lead
     followed by the field's name in any case; all other keys are passed over.  An override is set
     by the name itself, and a key that is no name is refused.
  2. **Precedence.**  A later layer replaces the value of an earlier one.  It does not change the
     place: fields are read in order of their FIRST appearance, and the first bad value is refused.
  3. **Values.**  Only texts are read, each as its field asks; other values are taken as they are.
     The ranges are checked when all are read.
-/
import Routing.Settings.Basic
import Routing.Settings.EnvFile
import Routing.Text.Numeral

namespace Routing

/-! ## Reading one value -/

/-- The truth value that a word stands for, in any case. -/
def switchWord? (t : Text) : Option Bool :=
  let word := t.lowered
  if word ∈ ["true".toList, "yes".toList, "on".toList, "1".toList] then some true
  else if word ∈ ["false".toList, "no".toList, "off".toList, "0".toList] then some false
  else none

/-- The time to live that a text stands for: none, or a number. -/
def ttlWord? (t : Text) : Option Setting :=
  if t.lowered ∈ [[], "none".toList, "null".toList] then some .null
  else (Text.toFloat? t).map .float

/-- The value that a stripped text stands for in a field. -/
def Field.parse? : Field → Text → Option Setting
  | .enabled, t => (switchWord? t).map .bool
  | .size, t => (Text.toInt? t).map .int
  | .ttl, t => ttlWord? t
  | .stats, t => (switchWord? t).map .bool

/-- The value of a field: a text is read, anything else is taken as it is. -/
def Field.read (f : Field) : Setting → Except Complaint Setting
  | .text raw =>
    match f.parse? (Text.strip raw) with
    | some v => .ok v
    | none => .error (.invalidValue f raw)
  | v => .ok v

/-! ## Layers -/

/-- The lead of keys if the caller names none. -/
def defaultLead : Text := "URIPATTERN_".toList

/-- Where settings are loaded from. -/
structure Layers where
  lead : Text
  file : Option ByteArray
  environment : List (Text × Text)
  overrides : List (Text × Setting)

/-- The layers of an environment alone. -/
def Layers.ofEnvironment (environment : List (Text × Text)) : Layers :=
  ⟨defaultLead, none, environment, []⟩

namespace Layers

/-- The field that a key sets: what follows the lead names it. -/
def fieldOf? (lead key : Text) : Option Field :=
  (lead.isPrefixOf? key).bind fun rest => Field.ofName? (Text.lowered rest)

/-- The raw values of the fields after one more layer of keys and texts. -/
def addLayer (lead : Text) (raw : Assoc Field Setting) (layer : Assoc Text Text) :
    Assoc Field Setting :=
  layer.foldl
    (fun acc p =>
      match fieldOf? lead p.1 with
      | some f => acc.put f (.text p.2)
      | none => acc)
    raw

/-- The keys of overrides that name no field, in order of code points. -/
def unknownKeys (overrides : Assoc Text Setting) : List Text :=
  (overrides.keys.filter fun key => (Field.ofName? key).isNone).mergeSort fun a b => !decide (b < a)

/-- The raw values after overrides whose keys all name fields. -/
def addOverrides (raw : Assoc Field Setting) (overrides : Assoc Text Setting) :
    Assoc Field Setting :=
  Assoc.putAll (overrides.filterMap fun p => (Field.ofName? p.1).map (·, p.2)) raw

/-- The values of all fields, or the complaint about the first bad one. -/
def readAll : Assoc Field Setting → Except Complaint (List (Field × Setting))
  | [] => .ok []
  | (f, raw) :: rest =>
    match f.read raw with
    | .error c => .error c
    | .ok v => (readAll rest).map ((f, v) :: ·)

/-- The entries of the file; none if there is no file, an error if it cannot be read. -/
def fileEntries (layers : Layers) : Except SettingsFault (Assoc Text Text) :=
  match layers.file with
  | none => .ok []
  | some bytes =>
    match EnvFile.decode? bytes with
    | some text => .ok (EnvFile.entries text)
    | none => .error .unreadable

/-- The **settings of layers**, checked. -/
def load (layers : Layers) : Except SettingsFault Settings :=
  match layers.fileEntries with
  | .error e => .error e
  | .ok file =>
    let raw := addLayer layers.lead (addLayer layers.lead [] file)
      (Assoc.ofPairs layers.environment)
    let overrides := Assoc.ofPairs layers.overrides
    match unknownKeys overrides with
    | [] =>
      match readAll (addOverrides raw overrides) with
      | .ok values => (Settings.ofValues values).check
      | .error c => .error (.refused c)
    | keys => .error (.refused (.unknownKeys keys))

end Layers

/-! ## Examples -/

example : Layers.fieldOf? defaultLead "URIPATTERN_CACHE_Size".toList = some .size := by decide
example : switchWord? "Yes".toList = some true ∧ switchWord? "2".toList = none := by decide

end Routing
