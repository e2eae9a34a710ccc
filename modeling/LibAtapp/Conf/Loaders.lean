import LibAtapp.Conf.MessageTree

set_option autoImplicit false

/-! # The loaders of a message

The INI, the YAML and the environment loader visit the fields of a message in the same way: a leaf
is read and written, a message is entered with its name added to the key, a message with a matching
`field_match` is read from the source of its parent with the keys of its parent, and the elements of
a repeated message are appended one by one. A `Duration` or `Timestamp` is a leaf that can also be
entered, for its parts. What differs is how a source gives a text, a message or elements, and which
index an element has in its keys; a `Format` has that, and `load` is the visit for any format. Then
comes the pass over the defaults. -/

namespace LibAtapp.Conf

variable {V : Type}

/-! ## Visiting a message -/

/-- How a loader reads its sources. -/
structure Format (σ V : Type) where
  leaf : σ → FieldInfo → LeafType V → Option (Reading V)
  /-- Where the parts of a leaf are read that has no reading of its own. -/
  enter : σ → FieldInfo → LeafType V → Option σ
  leaves : σ → FieldInfo → LeafType V → List (Reading V ⊕ σ)
  /-- What is tried where no leaf was appended. -/
  fallbackLeaves : σ → FieldInfo → LeafType V → List (Reading V ⊕ σ)
  /-- Whether the source has the text of a `field_match` under its name. -/
  isMatched : σ → Bytes × Bytes → Bool
  message : σ → FieldInfo → Option σ
  elements : σ → FieldInfo → Bool → List σ
  /-- What is tried where no element was loaded. -/
  fallback : σ → FieldInfo → List σ
  /-- Whether the keys of elements count from 0, wherever in the list they are appended. -/
  countsFromZero : Bool
  /-- Whether an element that gives nothing is removed again and ends the list. -/
  dropsEmpty : Bool
  /-- What ends the key of an element. -/
  elementMark : Bool → Bytes

/-- The elements of a repeated field, visited in order with their positions. -/
def visitElements {σ : Type} (visit : Nat → σ → Dump V → Dump V × Bool) (stops : Bool) :
    Nat → List σ → Dump V → Dump V × Bool
  | _, [], d => (d, false)
  | j, element :: rest, d =>
    let here := visit j element d
    if stops && !here.2 then (here.1, false)
    else
      let later := visitElements visit stops (j + 1) rest here.1
      (later.1, here.2 || later.2)

/-- The index of an element in its keys: its position in the source or in the message. -/
def Format.elementIndex {σ : Type} (format : Format σ V) (isMap : Bool) (position size : Nat) : Nat :=
  if format.countsFromZero && !isMap then position else size

/-- Appends an element to the repeated message at `n` of the message at `p` and loads it. -/
def loadElement {σ : Type} (format : Format σ V)
    (loadFields : σ → Path → Bytes → Dump V → Dump V × Bool) (p : Path) (n : Nat) (keys : Bytes)
    (info : FieldInfo) (isMap : Bool) (position : Nat) (element : σ) (d : Dump V) :
    Dump V × Bool :=
  let size := d.size (p ++ [(n, none)])
  let key := keys ++ info.name ++ ascii "." ++ decimal (format.elementIndex isMap position size)
  let loaded := loadFields element (p ++ [(n, some size)]) (key ++ ascii ".") (d.addMessage p n)
  if loaded.2 then (loaded.1.insertKey (key ++ format.elementMark isMap), true)
  else if format.dropsEmpty then (loaded.1.removeLast p n, false)
  else (loaded.1, false)

/-- Loads the parts of the leaf at `q`. -/
def loadParts {σ : Type} (format : Format σ V) (src : σ) (q : Path) (keys : Bytes) :
    List (Bytes × (Option V → LeafReader V)) → Dump V → Dump V × Bool
  | [], d => (d, false)
  | (name, part) :: parts, d =>
    let kind : LeafType V := { part ((d.leaf q).map (·.1)) with }
    let here := match format.leaf src { name := name } kind with
      | some reading => d.dumpPart q (keys ++ name) reading
      | none => (d, false)
    let later := loadParts format src q keys parts here.1
    (later.1, here.2 || later.2)

/-- Loads the leaf at `n` of the message at `p`. -/
def loadLeaf {σ : Type} (format : Format σ V) (src : σ) (p : Path) (n : Nat) (keys : Bytes)
    (info : FieldInfo) (kind : LeafType V) (d : Dump V) : Dump V × Bool :=
  match info.fieldMatch with
  | some fieldMatch =>
    if format.isMatched src fieldMatch then
      loadParts format src (p ++ [(n, none)]) keys kind.parts (d.select p n info)
    else (d, false)
  | none =>
    match format.leaf src info kind with
    | some reading => d.dumpFieldWithValue p n keys info reading
    | none =>
      match format.enter src info kind with
      | none => (d, false)
      | some child =>
        let loaded := loadParts format child (p ++ [(n, none)]) (keys ++ info.name ++ ascii ".")
          kind.parts (d.select p n info)
        if loaded.2 then (loaded.1.insertKey (keys ++ info.name), true) else loaded

/-- Appends to the repeated leaf at `n` of the message at `p`. -/
def loadItem {σ : Type} (format : Format σ V) (p : Path) (n : Nat) (keys : Bytes)
    (info : FieldInfo) (kind : LeafType V) (position : Nat) (item : Reading V ⊕ σ) (d : Dump V) :
    Dump V × Bool :=
  match item with
  | .inl reading => d.dumpRepeatedValue p n keys info reading
  | .inr element =>
    loadElement format (fun element q keys d => loadParts format element q keys kind.parts d)
      p n keys info false position element d

/-- Loads the fields from the one at `n` on of the message at `p`, under the given keys; and
    whether anything was loaded. -/
def load {σ : Type} (format : Format σ V) :
    Descriptor V → σ → Path → Nat → Bytes → Dump V → Dump V × Bool
  | .nil, _, _, _, _, d => (d, false)
  | .leaf info kind rest, src, p, n, keys, d =>
    let here := loadLeaf format src p n keys info kind d
    let later := load format rest src p (n + 1) keys here.1
    (later.1, here.2 || later.2)
  | .leaves info kind rest, src, p, n, keys, d =>
    let visit := loadItem format p n keys info kind
    let listed := visitElements visit format.dropsEmpty 0 (format.leaves src info kind) d
    let here := if listed.2 then listed
      else visitElements visit format.dropsEmpty 0 (format.fallbackLeaves src info kind) listed.1
    let later := load format rest src p (n + 1) keys here.1
    (later.1, here.2 || later.2)
  | .message info sub rest, src, p, n, keys, d =>
    let here := match info.fieldMatch with
      | some fieldMatch =>
        if format.isMatched src fieldMatch then
          load format sub src (p ++ [(n, none)]) 0 keys (d.select p n info)
        else (d, false)
      | none =>
        match format.message src info with
        | none => (d, false)
        | some child =>
          let loaded := load format sub child (p ++ [(n, none)]) 0 (keys ++ info.name ++ ascii ".")
            (d.select p n info)
          if loaded.2 then (loaded.1.insertKey (keys ++ info.name), true) else loaded
    let later := load format rest src p (n + 1) keys here.1
    (later.1, here.2 || later.2)
  | .messages info isMap sub rest, src, p, n, keys, d =>
    let visit := loadElement format (fun element q keys d => load format sub element q 0 keys d)
      p n keys info isMap
    let listed := visitElements visit format.dropsEmpty 0 (format.elements src info isMap) d
    let here := if listed.2 then listed
      else visitElements visit format.dropsEmpty 0 (format.fallback src info) listed.1
    let later := load format rest src p (n + 1) keys here.1
    (later.1, here.2 || later.2)

/-! ## INI -/

/-- An `ini_value`: its texts and its children by name. -/
inductive IniValue
  | node (texts : List Bytes) (children : List (Bytes × IniValue))

namespace IniValue

def texts : IniValue → List Bytes
  | .node texts _ => texts

def children : IniValue → List (Bytes × IniValue)
  | .node _ children => children

/-- `as_cpp_string` -/
def asCppString (v : IniValue) (index : Nat) : Bytes := (v.texts[index]?).getD []

def child (v : IniValue) (name : Bytes) : Option IniValue := v.children.lookup name

/-- The children named 0, 1 and so on, up to the first number that names none. -/
def indexed (v : IniValue) : List IniValue :=
  ((List.range v.children.length).map fun j => v.child (decimal j)).takeWhile Option.isSome
    |>.filterMap id

end IniValue

/-- A node of an INI file, or an entry of a map field with the expression flag of the field. -/
inductive IniSource
  | node (v : IniValue)
  | entry (enableExpression : Bool) (key : Bytes) (v : IniValue)

/-- A text as it is read: the value, and whether the text is empty. -/
def readText (kind : LeafType V) (environment : Environment) (text : Bytes) : Reading V :=
  let picked := kind.pickText environment text
  ⟨picked.1, picked.2, decide (text ≠ [])⟩

/-- The key or the value of a map entry; a string value with expressions is never a default. -/
def readIniEntry (environment : Environment) (enableExpression : Bool) (key : Bytes) (v : IniValue)
    (info : FieldInfo) (kind : LeafType V) : Reading V :=
  if info.name = ascii "key" then
    readText kind environment
      (if enableExpression then expandEnvironmentExpression environment key else key)
  else
    match enableExpression, kind.ofString with
    | true, some ofString =>
      ⟨ofString (expandEnvironmentExpression environment (v.asCppString 0)), false,
        decide (v.asCppString 0 ≠ [])⟩
    | _, _ => readText kind environment (v.asCppString 0)

/-- `dump_field_item` and `dump_pick_field` of the INI loader. Of a repeated `Duration` or
    `Timestamp` the first text is read. -/
def iniFormat (environment : Environment) : Format IniSource V where
  leaf src info kind :=
    match src with
    | .node v => (v.child info.name).map fun c => readText kind environment (c.asCppString 0)
    | .entry enableExpression key v =>
      some (readIniEntry environment enableExpression key v info kind)
  enter _ _ _ := none
  leaves src info kind :=
    match src with
    | .node v =>
      match v.child info.name with
      | some c =>
        let texts := if kind.isMoment then [c.asCppString 0] else c.texts
        texts.map fun text => .inl (readText kind environment text)
      | none => []
    | .entry _ _ _ => []
  fallbackLeaves _ _ _ := []
  isMatched src fieldMatch :=
    match src with
    | .node v => (v.child fieldMatch.1).any fun c => c.asCppString 0 = fieldMatch.2
    | .entry _ _ _ => false
  message src info :=
    match src with
    | .node v => (v.child info.name).map .node
    | .entry _ _ v => some (.node v)
  elements src info isMap :=
    match src with
    | .node v =>
      match v.child info.name with
      | some c =>
        if isMap then c.children.map fun entry => .entry info.enableExpression entry.1 entry.2
        else c.indexed.map .node
      | none => []
    | .entry _ _ _ => []
  fallback _ _ := []
  countsFromZero := true
  dropsEmpty := false
  elementMark isMap := if isMap then [] else ascii "."

/-! ## YAML -/

namespace YamlNode

/-- `src[name]` of a map. -/
def child : YamlNode → Bytes → Option YamlNode
  | .map entries, name => (entries.find? fun entry =>
      match entry.1 with
      | .scalar text => text = name
      | _ => false).map (·.2)
  | _, _ => none

/-- Whether the node is a text that is not empty, or a map. -/
def hasText : YamlNode → Bool
  | .scalar text => decide (text ≠ [])
  | .map _ => true
  | _ => false

/-- The node with its text expanded. -/
def expanded (environment : Environment) : YamlNode → YamlNode
  | .scalar text => .scalar (expandEnvironmentExpression environment text)
  | node => node

/-- The items of a repeated field: those of a sequence, or the node itself. -/
def items : YamlNode → List YamlNode
  | .sequence items => items
  | .null => []
  | node => [node]

end YamlNode

/-- A map node, or an entry of a map field with the expression flag of the field. -/
inductive YamlSource
  | node (v : YamlNode)
  | entry (enableExpression : Bool) (key v : YamlNode)

/-- `dump_pick_field` of a node and a leaf: nulls and sequences are not read. -/
def readNode (kind : LeafType V) (environment : Environment) (node : YamlNode) :
    Option (Reading V) :=
  match node with
  | .null => none
  | .sequence _ => none
  | node => (kind.pickNode environment node).map fun picked =>
      ⟨picked.1, picked.2, node.hasText⟩

/-- The map that the parts of a leaf are read from. -/
def enterNode (kind : LeafType V) (node : YamlNode) : Option YamlSource :=
  match node with
  | .map entries => if kind.isMoment then some (.node (.map entries)) else none
  | _ => none

/-- `dump_field_item` and `dump_pick_field` of the YAML loader. -/
def yamlFormat (environment : Environment) : Format YamlSource V where
  leaf src info kind :=
    match src with
    | .node v => (v.child info.name).bind (readNode kind environment)
    | .entry enableExpression key v =>
      let node := if info.name = ascii "key" then key else v
      readNode kind environment
        (if enableExpression && !kind.isMoment then node.expanded environment else node)
  enter src info kind :=
    match src with
    | .node v => (v.child info.name).bind (enterNode kind)
    | .entry _ key v => enterNode kind (if info.name = ascii "key" then key else v)
  leaves src info kind :=
    match src with
    | .node v =>
      match v.child info.name with
      | some c => c.items.filterMap fun item =>
        ((readNode kind environment item).map .inl).or ((enterNode kind item).map .inr)
      | none => []
    | .entry _ _ _ => []
  fallbackLeaves _ _ _ := []
  isMatched src fieldMatch :=
    match src with
    | .node v =>
      match v.child fieldMatch.1 with
      | some (.scalar text) => text = fieldMatch.2
      | _ => false
    | .entry _ _ _ => false
  message src info :=
    match src with
    | .node v =>
      match v.child info.name with
      | some (.map entries) => some (.node (.map entries))
      | _ => none
    | .entry _ _ (.map entries) => some (.node (.map entries))
    | .entry _ _ _ => none
  elements src info isMap :=
    match src with
    | .node v =>
      match v.child info.name with
      | some c => c.items.flatMap fun item =>
        match item with
        | .map entries =>
          if isMap then entries.map fun entry => .entry info.enableExpression entry.1 entry.2
          else [.node (.map entries)]
        | _ => []
      | none => []
    | .entry _ _ _ => []
  fallback _ _ := []
  countsFromZero := false
  dropsEmpty := false
  elementMark isMap := if isMap then [] else ascii "."

/-! ## The environment -/

/-- `toupper` on one byte. -/
def toUpper (c : Byte) : Byte := if 0x61 ≤ c ∧ c ≤ 0x7A then c - 0x20 else c

/-- The variable of a field under a prefix. -/
def environmentKey (keyPrefix name : Bytes) : Bytes :=
  ((if keyPrefix = [] then [] else keyPrefix ++ ascii "_") ++ name).map toUpper

/-- What a variable has for a leaf: its text or, where that is empty, the parts under its name. -/
def environmentItem (environment : Environment) (kind : LeafType V) (key : Bytes) :
    Option (Reading V ⊕ Bytes) :=
  let val := environment.getenv key
  if val ≠ [] then some (.inl (readText kind environment val))
  else if kind.isMoment then some (.inr key)
  else none

/-- `dump_environment_field_item` and `dump_environment_pick_field`. Elements are tried up to
    `limit`, which stands for any number that is not below the count of variables: the loop ends at
    the first element that gives nothing. -/
def environmentFormat (environment : Environment) (limit : Nat) : Format Bytes V where
  leaf keyPrefix info kind :=
    (environmentItem environment kind (environmentKey keyPrefix info.name)).bind Sum.getLeft?
  enter keyPrefix info kind :=
    (environmentItem environment kind (environmentKey keyPrefix info.name)).bind Sum.getRight?
  leaves keyPrefix info kind :=
    let key := environmentKey keyPrefix info.name
    ((List.range limit).map fun i =>
      environmentItem environment kind (key ++ ascii "_" ++ decimal i)).takeWhile Option.isSome
      |>.filterMap id
  fallbackLeaves keyPrefix info kind :=
    (environmentItem environment kind (environmentKey keyPrefix info.name)).toList
  isMatched keyPrefix fieldMatch :=
    environment.getenv (environmentKey keyPrefix fieldMatch.1) = fieldMatch.2
  message keyPrefix info :=
    let key := environmentKey keyPrefix info.name
    if environment.getenv key = [] then some key else none
  elements keyPrefix info _ :=
    ((List.range limit).map fun i =>
      environmentKey keyPrefix info.name ++ ascii "_" ++ decimal i).takeWhile fun key =>
        environment.getenv key = []
  fallback keyPrefix info :=
    let key := environmentKey keyPrefix info.name
    if environment.getenv key = [] then [key] else []
  countsFromZero := false
  dropsEmpty := true
  elementMark _ := []

/-! ## Loads and defaults -/

/-- A call of one of the loaders on the whole message. -/
inductive Load
  | ini (src : IniValue)
  | yaml (src : YamlNode)
  | environment (keyPrefix : Bytes) (limit : Nat)

namespace Dump

/-- `ini_loader_dump_to`, `yaml_loader_dump_to` and `environment_loader_dump_to`; a YAML document
    that is no map is not read. -/
def loaded (environment : Environment) (desc : Descriptor V) (d : Dump V) : Load → Dump V
  | .ini src => (load (iniFormat environment) desc (.node src) [] 0 [] d).1
  | .yaml (.map entries) =>
    (load (yamlFormat environment) desc (.node (.map entries)) [] 0 [] d).1
  | .yaml _ => d
  | .environment keyPrefix limit =>
    (load (environmentFormat environment limit) desc keyPrefix [] 0 [] d).1

/-- A default takes the place of a value; whether a loader has set the leaf is kept. -/
def setDefault (d : Dump V) (p : Path) (n : Nat) (info : FieldInfo) (value : V) : Dump V :=
  d.setLeaf p n info value (((d.leaf (p ++ [(n, none)])).map (·.2)).getD false)

/-- `dump_pick_default_field` of the fields from the one at `n` on of the message at `p`. A field
    whose oneof has a member is skipped. -/
def dumpPickDefaultFields (environment : Environment) :
    Descriptor V → Path → Nat → Bytes → Dump V → Dump V
  | .nil, _, _, _, d => d
  | .leaf info kind rest, p, n, keys, d =>
    let here :=
      if d.hasOneof p info ∨ kind.hasDefault = false ∨ keys ++ info.name ∈ d.existed then d
      else d.setDefault p n info (kind.default environment)
    dumpPickDefaultFields environment rest p (n + 1) keys here
  | .leaves _ _ rest, p, n, keys, d => dumpPickDefaultFields environment rest p (n + 1) keys d
  | .message info sub rest, p, n, keys, d =>
    let here :=
      if d.hasOneof p info then d
      else dumpPickDefaultFields environment sub (p ++ [(n, none)]) 0 (keys ++ info.name ++ ascii ".")
        (d.select p n info)
    dumpPickDefaultFields environment rest p (n + 1) keys here
  | .messages info _ sub rest, p, n, keys, d =>
    let here :=
      if d.hasOneof p info then d
      else (List.range (d.size (p ++ [(n, none)]))).foldl (fun d i =>
        dumpPickDefaultFields environment sub (p ++ [(n, some i)]) 0
          (keys ++ info.name ++ ascii "." ++ decimal i ++ ascii ".") d) d
    dumpPickDefaultFields environment rest p (n + 1) keys here

/-- `default_loader_dump_to` -/
def defaultLoaderDumpTo (environment : Environment) (desc : Descriptor V) (d : Dump V) : Dump V :=
  dumpPickDefaultFields environment desc [] 0 [] d

end Dump

/-! ## Leaves of the scalar kinds -/

/-- The leaf of a scalar field. A node that is a map gives a number its default. -/
def LeafType.ofKind (kind : FieldKind V) (options : FieldOptions) (ofString : Option (Bytes → V)) :
    LeafType V where
  pickText environment text := kind.pickText environment options text
  pickNode environment node :=
    match node, kind with
    | .scalar text, .number type =>
      some (dumpPickNodeWithExtensions type environment options (some text))
    | .scalar text, kind => some (kind.pickText environment options text)
    | _, .number type => some (dumpPickNodeWithExtensions type environment options none)
    | _, _ => none
  hasDefault := match options with
    | some opt => decide (opt.defaultValue ≠ [])
    | none => false
  ofString := ofString

/-- A reader with its values in another type. -/
def LeafReader.map {W : Type} (f : V → W) (reader : LeafReader V) : LeafReader W where
  pickText environment text :=
    let picked := reader.pickText environment text
    (f picked.1, picked.2)
  pickNode environment node :=
    (reader.pickNode environment node).map fun picked => (f picked.1, picked.2)
  ofString := reader.ofString.map fun g text => f (g text)

/-- A leaf with its values in another type; `g` takes back the value that a part is read into. -/
def LeafType.map {W : Type} (f : V → W) (g : W → Option V) (kind : LeafType V) : LeafType W :=
  { kind.toLeafReader.map f with
    hasDefault := kind.hasDefault
    parts := kind.parts.map fun part => (part.1, fun old => (part.2 (old.bind g)).map f) }

/-- A part of a `Duration` or `Timestamp`, which is an integer without options. -/
def momentPart (type : ScalarType Int) (set : Moment → Int → Moment) (old : Option Moment) :
    LeafReader Moment :=
  LeafReader.map (set (old.getD ⟨0, 0⟩)) (LeafType.ofKind (.number type) none none).toLeafReader

/-- The leaf of a `Duration` or `Timestamp`. A node that is a map is entered. -/
def LeafType.moment (reader : NumberReader) (pickConstData : Bytes → Moment)
    (options : FieldOptions) : LeafType Moment :=
  let number := LeafType.ofKind (.number (momentType pickConstData)) options none
  { number with
    pickNode := fun environment node =>
      match node with
      | .scalar text => number.pickNode environment (.scalar text)
      | _ => none
    parts :=
      [(ascii "seconds", momentPart (int64Type reader) fun m value => { m with seconds := value }),
        (ascii "nanos", momentPart (int32Type reader) fun m value => { m with nanos := value })] }

end LibAtapp.Conf
