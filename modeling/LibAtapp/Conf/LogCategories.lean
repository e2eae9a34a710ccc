import LibAtapp.Conf.Loaders
import Mathlib.Data.List.Sort

set_option autoImplicit false

/-! # The categories of a log

A log is read from the environment, then from an INI tree and then from YAML documents. Each source
has a list of entries for categories; an entry is merged into a category that has its name or its
index, or else it makes a new one. What the sources give is in a `LogEntry`, and `LogState.merge` is
the merge. In the end the categories are sorted by index.

The keys of everything that is loaded for a category begin with a number for the category, and those
of a sink with one for the sink. A `LogKey` is such a beginning; it remembers what it was made for,
the category by its place before the sort. -/

namespace LibAtapp.Conf

/-! ## The messages -/

/-- The value of a leaf. -/
inductive LogValue
  | text (value : Bytes)
  | number (value : Int)
  | moment (value : Moment)

/-- The moment that a leaf has. -/
def LogValue.toMoment : LogValue → Option Moment
  | .moment value => some value
  | _ => none

/-- What the loaders use of the libraries for numbers and for durations. -/
structure LogReader where
  number : NumberReader
  pickConstData : Bytes → Moment

namespace LogReader

variable (reader : LogReader)

/-- `string::to_int<int32_t>`, `string::str2int` and `ini_value::as_int32` -/
def toInt32 (text : Bytes) : Int := (int32Type reader.number).fromStr text false

def textLeaf (options : FieldOptions) : LeafType LogValue :=
  LeafType.map .text (fun _ => none) (.ofKind (.text stringType) options (some id))

def numberLeaf (type : ScalarType Int) (options : FieldOptions) : LeafType LogValue :=
  LeafType.map .number (fun _ => none) (.ofKind (.number type) options none)

def durationLeaf : LeafType LogValue :=
  LeafType.map .moment LogValue.toMoment (.moment reader.number reader.pickConstData none)

/-- A field that has no options but this one. -/
def withExpression : FieldOptions := some { enableExpression := true }

def atappLogLevelRange : Descriptor LogValue :=
  .leaf { name := ascii "min" } (textLeaf none) <|
  .leaf { name := ascii "max" } (textLeaf none) .nil

def atappLogSinkFile : Descriptor LogValue :=
  .leaf { name := ascii "file", enableExpression := true } (textLeaf withExpression) <|
  .message { name := ascii "rotate" }
    (.leaf { name := ascii "size" }
      (numberLeaf (uint64Type reader.number) (some { sizeMode := true })) <|
    .leaf { name := ascii "number" } (numberLeaf (uint32Type reader.number) none) .nil) <|
  .leaf { name := ascii "auto_flush" } (textLeaf none) <|
  .leaf { name := ascii "flush_interval" } reader.durationLeaf <|
  .leaf { name := ascii "writing_alias" } (textLeaf none) .nil

def atappLogSinkSyslog : Descriptor LogValue :=
  .leaf { name := ascii "ident", enableExpression := true } (textLeaf withExpression) <|
  .leaves { name := ascii "options" } (textLeaf none) <|
  .leaf { name := ascii "facility" } (textLeaf none) .nil

/-- A member of the `backend`, which is expanded where the sink has the given type. -/
def backend (name type : String) : FieldInfo where
  name := ascii name
  oneof := some 0
  fieldMatch := some (ascii "type", ascii type)

def atappLogSink : Descriptor LogValue :=
  .leaf { name := ascii "type" } (textLeaf none) <|
  .message { name := ascii "level" } atappLogLevelRange <|
  .message (backend "log_backend_file" "file") reader.atappLogSinkFile <|
  .message (backend "log_backend_stdout" "stdout") .nil <|
  .message (backend "log_backend_stderr" "stderr") .nil <|
  .message (backend "log_backend_syslog" "syslog") atappLogSinkSyslog <|
  .messages { name := ascii "unresolved_key_values", enableExpression := true } true
    (.leaf { name := ascii "key" } (textLeaf none) <|
    .leaf { name := ascii "value" } (textLeaf none) .nil) .nil

def atappLogCategory : Descriptor LogValue :=
  .leaf { name := ascii "index" } (numberLeaf (int32Type reader.number) none) <|
  .leaf { name := ascii "name", enableExpression := true } (textLeaf withExpression) <|
  .leaf { name := ascii "prefix", enableExpression := true } (textLeaf withExpression) <|
  .message { name := ascii "stacktrace" } atappLogLevelRange <|
  .messages { name := ascii "sink" } false reader.atappLogSink .nil

/-- How many sinks a loader appends with a category. It is the same for every category: a sink is
    only dropped where the environment sets none of its fields. -/
def loadedSinks {σ : Type} (format : Format σ LogValue) (src : σ) : Nat :=
  (load format reader.atappLogCategory src [] 0 [] {}).1.size [(4, none)]

end LogReader

/-! ## The entries of the sources -/

inductive LogSource
  | environment
  | ini
  | yaml
deriving DecidableEq

/-- What a source has for a category: its place in the list of the source, the text of the name and
    the name after expansion, and the index if the entry gives one. -/
structure LogEntry where
  source : LogSource
  position : Nat
  name : Bytes
  newName : Bytes
  index : Option Int
  /-- The sinks that are loaded with the category. -/
  listed : Nat
  /-- The sinks whose keys count from 0 in a loop after that. From YAML they are those that were
      loaded with the category, from the other sources they are added in the loop. -/
  counted : Nat
deriving DecidableEq

/-- Everything that a log is read from; an empty prefix turns the environment off. `limit` stands
    for any number that is not below the count of variables. -/
structure LogSources where
  reader : LogReader
  environment : Environment
  environmentPrefix : Bytes
  limit : Nat
  root : IniValue
  path : List Bytes
  documents : List YamlNode

namespace LogSources

variable (srcs : LogSources)

/-- The prefix of the variables of a category. -/
def categoryPrefix (position : Nat) : Bytes :=
  (srcs.environmentPrefix ++ ascii "_CATEGORY_" ++ decimal position).map toUpper

/-- The entries of `setup_load_category_from_environment`: the loop ends where there is no name, and
    that over the sinks where there is no type. -/
def environmentEntries : List LogEntry :=
  ((List.range srcs.limit).takeWhile fun position =>
    srcs.environment.getenv (srcs.categoryPrefix position ++ ascii "_NAME") ≠ []).map
  fun position =>
    let name := srcs.environment.getenv (srcs.categoryPrefix position ++ ascii "_NAME")
    let index := srcs.environment.getenv (srcs.categoryPrefix position ++ ascii "_INDEX")
    let sinks := (List.range srcs.limit).takeWhile fun i =>
      srcs.environment.getenv ((srcs.environmentPrefix ++ ascii "_" ++ name ++ ascii "_"
        ++ decimal i).map toUpper ++ ascii "_TYPE") ≠ []
    { source := .environment
      position := position
      name := name
      newName := expandEnvironmentExpression srcs.environment name
      index := if index = [] then none else some (srcs.reader.toInt32 index)
      listed := srcs.reader.loadedSinks (environmentFormat srcs.environment srcs.limit)
        (srcs.categoryPrefix position)
      counted := sinks.length }

/-- Where the path ends in an INI tree: a step that leads nowhere is the last one. -/
def iniDescend : IniValue → List Bytes → IniValue
  | v, [] => v
  | v, key :: path =>
    match v.child key with
    | some c => iniDescend c path
    | none => v

/-- The node that `parse_ini_log_categories_into` reads. -/
def iniRoot : Option IniValue :=
  match srcs.path with
  | [] => none
  | key :: path => (srcs.root.child key).map fun v => iniDescend v path

/-- The text of a child, empty where there is none. -/
def iniText (v : IniValue) (name : String) : Bytes :=
  match v.child (ascii name) with
  | some c => c.asCppString 0
  | none => []

/-- The entries of `setup_load_category` for an INI tree; entries without a name are passed over. -/
def iniEntries : List LogEntry :=
  match srcs.iniRoot with
  | none => []
  | some src =>
    match (src.child (ascii "category")).or (src.child (ascii "cat")) with
    | none => []
    | some categories =>
      let nodes := categories.indexed.takeWhile fun v => v.texts ≠ [] ∨ ¬ v.children.isEmpty
      nodes.zipIdx.filterMap fun (v, position) =>
        let name := iniText v "name"
        if name = [] then none
        else
          let sinks := match src.child name with
            | some c => c.indexed.takeWhile fun sink => iniText sink "type" ≠ []
            | none => []
          some
            { source := .ini
              position := position
              name := name
              newName := expandEnvironmentExpression srcs.environment name
              index := (v.child (ascii "index")).map fun c => srcs.reader.toInt32 (c.asCppString 0)
              listed := srcs.reader.loadedSinks (iniFormat srcs.environment) (.node v)
              counted := sinks.length }

/-- `yaml_loader_get_child_by_path`: a step that leads nowhere is the last one, but an index that is
    out of range is passed over. -/
def yamlChildByPath (reader : LogReader) : YamlNode → List Bytes → YamlNode
  | node, [] => node
  | node, [] :: path => yamlChildByPath reader node path
  | node, (c :: key) :: path =>
    match node with
    | .sequence items =>
      if 0x30 ≤ c ∧ c ≤ 0x39 then
        match items[(reader.number.str2int (c :: key)).1.toNat]? with
        | some item => yamlChildByPath reader item path
        | none => yamlChildByPath reader (.sequence items) path
      else .sequence items
    | .map entries =>
      match (YamlNode.map entries).child (c :: key) with
      | some item => yamlChildByPath reader item path
      | none => .map entries
    | node => node

/-- The entry of `setup_load_category` for a YAML node. -/
def yamlEntry (src : YamlNode) : Option LogEntry :=
  match src, src.child (ascii "name") with
  | .map entries, some (.scalar (c :: text)) =>
    let name := c :: text
    let listed := srcs.reader.loadedSinks (yamlFormat srcs.environment) (.node (.map entries))
    some
      { source := .yaml
        position := 0
        name := name
        newName := expandEnvironmentExpression srcs.environment name
        index := match src.child (ascii "index") with
          | some (.scalar (d :: index)) => some (srcs.reader.toInt32 (d :: index))
          | _ => none
        listed := listed
        counted := match src.child (ascii "sink") with
          | some (.sequence items) => min listed items.length
          | _ => 0 }
  | _, _ => none

/-- The entries of `parse_yaml_log_categories_into`. -/
def yamlEntries : List LogEntry :=
  srcs.documents.flatMap fun document =>
    match yamlChildByPath srcs.reader document srcs.path with
    | .map entries =>
      match (YamlNode.map entries).child (ascii "category") with
      | some (.map fields) => (srcs.yamlEntry (.map fields)).toList
      | some (.sequence items) => items.filterMap srcs.yamlEntry
      | _ => []
    | _ => []

/-- All entries in the order in which `parse_log_configures_into` merges them. -/
def entries : List LogEntry :=
  (if srcs.environmentPrefix = [] then [] else srcs.environmentEntries) ++ srcs.iniEntries
    ++ srcs.yamlEntries

end LogSources

/-! ## The merge -/

/-- A category: its name and index, and how many sinks it has. -/
structure LogCategory where
  name : Bytes
  index : Int
  sinks : Nat
deriving DecidableEq

/-- The beginning of keys: the number for the category and the category it was made for, and the
    number for a sink with the place of the sink in its category. -/
structure LogKey where
  number : Int
  owner : Nat
  sink : Option (Nat × Nat) := none
deriving DecidableEq

/-- The categories in the order in which they were added, the numbers whose `name` is among the
    existed keys, the beginnings of the existed keys, and the entries with their categories. -/
structure LogState where
  categories : List LogCategory := []
  named : List Int := []
  keys : List LogKey := []
  placed : List (LogEntry × Nat) := []
deriving DecidableEq

/-- The index of the category at a place. -/
def indexAt (categories : List LogCategory) (i : Nat) : Int :=
  match categories[i]? with
  | some category => category.index
  | none => 0

/-- The loop of the environment and the INI loader over the categories from `i` on. It goes on after
    a match and then looks for the place of the match as the index. -/
def findCategory (name : Bytes) : Nat → Int → List LogCategory → Option Nat → Option Nat
  | _, _, [], found => found
  | i, index, category :: rest, found =>
    if category.name = name ∨ category.index = index then
      findCategory name (i + 1) i rest (some i)
    else findCategory name (i + 1) index rest found

/-- The first index that is above those of all categories. -/
def nextIndex (categories : List LogCategory) : Int :=
  categories.foldl (fun next category =>
    if next ≤ category.index then category.index + 1 else next) 0

namespace LogEntry

variable (entry : LogEntry)

/-- The index that the entry asks for. -/
def askedIndex : Option Int :=
  match entry.source with
  | .yaml => entry.index
  | _ => some (entry.index.getD entry.position)

/-- The category that the entry is merged into, if there is one. -/
def lookup (categories : List LogCategory) : Option Nat :=
  match entry.source with
  | .yaml => categories.findIdx? fun category =>
      category.name = entry.name ∨ category.index = entry.index.getD (-1)
  | _ => findCategory entry.name 0 (entry.index.getD entry.position) categories none

/-- The place of the category of the entry, which is a new one where none is found. -/
def place (categories : List LogCategory) : Nat :=
  (entry.lookup categories).getD categories.length

/-- The index of the category after the merge: the environment and the INI loader take its place. -/
def mergedIndex (categories : List LogCategory) : Int :=
  match entry.source, entry.lookup categories with
  | .yaml, some i => indexAt categories i
  | .yaml, none =>
    let index := entry.index.getD (-1)
    if index < 0 then nextIndex categories else index
  | _, some i => i
  | _, none => entry.index.getD entry.position

/-- The place of the sink whose key has the number 0 again, in a category that had `old` sinks. -/
def countStart (old : Nat) : Nat := if entry.source = .yaml then old else old + entry.listed

/-- The numbers and the places of the sinks in the keys of the entry, in a category that had `old`
    sinks. The INI loader counts the elements of a list from 0. -/
def sinkKeys (old : Nat) : List (Nat × Nat) :=
  let listed := (List.range entry.listed).map fun j =>
    (if entry.source = .ini then j else old + j, old + j)
  listed ++ (List.range entry.counted).map fun j => (j, entry.countStart old + j)

/-- How many sinks the entry adds. -/
def addedSinks : Nat := if entry.source = .yaml then entry.listed else entry.listed + entry.counted

end LogEntry

namespace LogState

/-- The category that an entry finds, or the one that it makes before anything is loaded. -/
def found (s : LogState) (entry : LogEntry) : LogCategory :=
  match s.categories[entry.place s.categories]? with
  | some category => category
  | none =>
    { name := if entry.source = .yaml then entry.name else []
      index := entry.mergedIndex s.categories
      sinks := 0 }

/-- Merges an entry. A name that expands to nothing is a default: it is not written over a name that
    is among the existed keys. -/
def merge (s : LogState) (entry : LogEntry) : LogState :=
  let i := entry.place s.categories
  let index := entry.mergedIndex s.categories
  let old := s.found entry
  let name := if entry.newName ≠ [] then entry.newName
    else if index ∈ s.named then old.name else []
  let category := { name := name, index := index, sinks := old.sinks + entry.addedSinks }
  { categories := if i < s.categories.length then s.categories.set i category
      else s.categories ++ [category]
    named := if entry.newName ≠ [] then index :: s.named else s.named
    keys := s.keys ++ { number := index, owner := i } ::
      (entry.sinkKeys old.sinks).map fun sink => { number := index, owner := i, sink := some sink }
    placed := s.placed ++ [(entry, i)] }

/-- The categories sorted by index, each by its place before the sort. -/
def order (s : LogState) : List Nat :=
  (List.range s.categories.length).mergeSort fun i j =>
    indexAt s.categories i ≤ indexAt s.categories j

end LogState

/-- `parse_log_configures_into` up to the defaults, which change none of this. -/
def parseLogConfiguresInto (srcs : LogSources) : LogState :=
  srcs.entries.foldl LogState.merge {}

end LibAtapp.Conf
