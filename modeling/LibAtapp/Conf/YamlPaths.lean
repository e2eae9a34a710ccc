import LibAtapp.Conf.LogCategories
import LibAtapp.Conf.Numbers
import LibAtapp.Conf.ScalarFormats

set_option autoImplicit false

/-! # Paths into YAML documents

`yaml_loader_get_child_by_path` stays at the node it has reached when a step leads nowhere, so a
load of a section that is missing reads the section around it. Here are the nodes that a path
leads to, and the loads that read these alone. -/

namespace LibAtapp.Conf

open LogSources (yamlChildByPath)

/-! ## Following a path -/

/-- The number of a decimal index, as far as it is a `size_t`. -/
def decimalIndex (key : Bytes) : Option ℕ :=
  if key ≠ [] ∧ (∀ c ∈ key, IsDigit c) ∧ digitsValue key < 2 ^ 64 then some (digitsValue key)
  else none

/-- The node one step below: an element of a sequence by its index, a member of a map by its
    name. -/
def YamlNode.step (node : YamlNode) (key : Bytes) : Option YamlNode :=
  match node with
  | .sequence items => (decimalIndex key).bind fun i => items[i]?
  | .map entries => (YamlNode.map entries).child key
  | _ => none

/-- The node at the end of a path, where every step exists; keys that are empty are no steps. -/
def YamlNode.follow : YamlNode → List Bytes → Option YamlNode
  | node, [] => some node
  | node, [] :: path => node.follow path
  | node, (c :: key) :: path => (node.step (c :: key)).bind fun child => child.follow path

/-- `to_int<size_t>` reads a decimal index. -/
def ReadsIndexes (reader : NumberReader) : Prop :=
  ∀ key, Digits key → digitsValue key < 2 ^ 64 → (reader.str2int key).1.toNat = digitsValue key

theorem decimalIndex_eq_some {key : Bytes} {i : ℕ} (h : decimalIndex key = some i) :
    Digits key ∧ digitsValue key < 2 ^ 64 ∧ digitsValue key = i := by
  unfold decimalIndex at h
  split_ifs at h with hkey
  exact ⟨⟨hkey.1, hkey.2.1⟩, hkey.2.2, by simpa using h⟩

/-- Where every step exists the code goes the path to its end. -/
theorem yamlChildByPath_of_follow {reader : LogReader} (hreader : ReadsIndexes reader.number)
    {src node : YamlNode} {path : List Bytes} (h : src.follow path = some node) :
    yamlChildByPath reader src path = node := by
  induction path generalizing src with
  | nil => simpa [yamlChildByPath, YamlNode.follow] using h
  | cons key path ih =>
      cases key with
      | nil => exact ih h
      | cons c key =>
          obtain ⟨child, hstep, hchild⟩ := Option.bind_eq_some_iff.1 h
          cases src with
          | null => simp [YamlNode.step] at hstep
          | scalar text => simp [YamlNode.step] at hstep
          | sequence items =>
              rw [YamlNode.step, Option.bind_eq_some_iff] at hstep
              obtain ⟨i, hindex, hitem⟩ := hstep
              obtain ⟨hdigits, hsize, rfl⟩ := decimalIndex_eq_some hindex
              have hc : 0x30 ≤ c ∧ c ≤ 0x39 := hdigits.isDigit c List.mem_cons_self
              rw [yamlChildByPath, if_pos hc, hreader _ hdigits hsize, hitem]
              exact ih hchild
          | map entries =>
              have hmember : (YamlNode.map entries).child (c :: key) = some child := hstep
              rw [yamlChildByPath, hmember]
              exact ih hchild

/-- The code finds what a path leads to exactly when it leads somewhere. -/
theorem yamlChildByPath_eq_follow_iff {reader : LogReader} (hreader : ReadsIndexes reader.number)
    (src : YamlNode) (path : List Bytes) :
    some (yamlChildByPath reader src path) = src.follow path ↔ (src.follow path).isSome = true := by
  constructor
  · intro h
    rw [← h]
    rfl
  · intro h
    obtain ⟨node, hnode⟩ := Option.isSome_iff_exists.1 h
    rw [hnode, yamlChildByPath_of_follow hreader hnode]

/-! ## Paths as texts -/

/-- The bytes that end a key of a path -/
def endsKey (c : Byte) : Bool :=
  c = 0 || c = 0x2e || c = 0x20 || c = 0x09 || c = 0x0d || c = 0x0a

theorem length_skipSpace_le (isSpace : Byte → Bool) (text : Bytes) :
    (skipSpace isSpace text).length ≤ text.length := by
  induction text with
  | nil => exact le_rfl
  | cons c rest ih =>
      simp only [skipSpace]
      split
      · exact ih.trans (Nat.le_succ _)
      · exact le_rfl

/-- What is left after a key: the spaces behind it are skipped, and a dot with the spaces behind
    it. -/
def afterKey (isSpace : Byte → Bool) (text : Bytes) : Bytes :=
  match skipSpace isSpace text with
  | [] => []
  | c :: rest => if c = 0x2e then skipSpace isSpace rest else c :: rest

theorem length_afterKey_le (isSpace : Byte → Bool) (text : Bytes) :
    (afterKey isSpace text).length ≤ text.length := by
  have hskip := length_skipSpace_le isSpace text
  unfold afterKey
  split
  · exact Nat.zero_le _
  · next c rest heq =>
      rw [heq] at hskip
      split
      · exact (length_skipSpace_le isSpace rest).trans ((Nat.le_succ _).trans hskip)
      · exact hskip

/-- The keys of a path -/
def splitYamlPath (isSpace : Byte → Bool) (text : Bytes) : List Bytes :=
  match _h : skipSpace isSpace text with
  | [] => []
  | c :: rest =>
    if c = 0 then []
    else
      (c :: rest.takeWhile fun c => !endsKey c) ::
        splitYamlPath isSpace (afterKey isSpace (rest.dropWhile fun c => !endsKey c))
termination_by text.length
decreasing_by
  have hskip := length_skipSpace_le isSpace text
  have hafter := length_afterKey_le isSpace (rest.dropWhile fun c => !endsKey c)
  have hdrop := (List.dropWhile_suffix (l := rest) fun c => !endsKey c).length_le
  rw [_h, List.length_cons] at hskip
  omega

/-! ## Loads of configurations -/

/-- Everything that `parse_configures_into` reads. The children of the INI tree are found by
    another library. -/
structure ConfigureSources where
  reader : LogReader
  environment : Environment
  environmentPrefix : Bytes
  limit : Nat
  iniRoot : IniValue
  iniChildByPath : Bytes → Option IniValue
  documents : List YamlNode

namespace ConfigureSources

variable {V : Type} (srcs : ConfigureSources)

/-- `yaml_loader_get_child_by_path` with a text -/
def childByPath (src : YamlNode) (path : Bytes) : YamlNode :=
  if path = [] then src
  else yamlChildByPath srcs.reader src (splitYamlPath srcs.reader.number.isSpace path)

/-- The node that a path of a text leads to -/
def follow (src : YamlNode) (path : Bytes) : Option YamlNode :=
  if path = [] then some src else src.follow (splitYamlPath srcs.reader.number.isSpace path)

/-- The loads before those of YAML -/
def otherLoads (path : Bytes) : List Load :=
  (if srcs.environmentPrefix = [] then []
    else [.environment srcs.environmentPrefix srcs.limit]) ++
  if path = [] then [.ini srcs.iniRoot] else ((srcs.iniChildByPath path).map .ini).toList

/-- `app::parse_configures_into` -/
def parseConfiguresInto (desc : Descriptor V) (path : Bytes) (d : Dump V) : Dump V :=
  Dump.defaultLoaderDumpTo srcs.environment desc
    ((srcs.otherLoads path ++ srcs.documents.map fun doc => Load.yaml (srcs.childByPath doc path)).foldl
      (Dump.loaded srcs.environment desc) d)

/-- The same with loads from the documents that have the path, as the INI loader does it. -/
def parseSectionsInto (desc : Descriptor V) (path : Bytes) (d : Dump V) : Dump V :=
  Dump.defaultLoaderDumpTo srcs.environment desc
    ((srcs.otherLoads path ++
      srcs.documents.filterMap fun doc => (srcs.follow doc path).map Load.yaml).foldl
      (Dump.loaded srcs.environment desc) d)

theorem childByPath_eq_follow_iff (hreader : ReadsIndexes srcs.reader.number) (src : YamlNode)
    (path : Bytes) :
    some (srcs.childByPath src path) = srcs.follow src path ↔
      (srcs.follow src path).isSome = true := by
  unfold childByPath follow
  split
  · simp
  · exact yamlChildByPath_eq_follow_iff hreader src _

end ConfigureSources

/-! ## Loads of logs -/

namespace LogSources

variable (srcs : LogSources)

/-- The level of a log after the loads from YAML, and whether one of them was made. -/
def yamlLevels (level : Bytes × Bool) (nodes : List YamlNode) : Bytes × Bool :=
  nodes.foldl (fun level node =>
    match node with
    | .map entries =>
      match (YamlNode.map entries).child (ascii "level") with
      | some (.scalar (c :: text)) => (c :: text, true)
      | _ => (level.1, true)
    | _ => level) level

/-- The entries of categories of the nodes that a log is loaded from -/
def nodeEntries (nodes : List YamlNode) : List LogEntry :=
  nodes.flatMap fun
    | .map entries =>
      match (YamlNode.map entries).child (ascii "category") with
      | some (.map fields) => (srcs.yamlEntry (.map fields)).toList
      | some (.sequence items) => items.filterMap srcs.yamlEntry
      | _ => []
    | _ => []

/-- `app::parse_yaml_log_categories_into`: the level and the entries of categories -/
def parseYamlLog (level : Bytes × Bool) : (Bytes × Bool) × List LogEntry :=
  (yamlLevels level (srcs.documents.map fun doc => yamlChildByPath srcs.reader doc srcs.path),
    srcs.yamlEntries)

/-- The same from the documents that have the path -/
def parseSectionsLog (level : Bytes × Bool) : (Bytes × Bool) × List LogEntry :=
  (yamlLevels level (srcs.documents.filterMap fun doc => doc.follow srcs.path),
    srcs.nodeEntries (srcs.documents.filterMap fun doc => doc.follow srcs.path))

theorem yamlEntries_eq : srcs.yamlEntries =
    srcs.nodeEntries (srcs.documents.map fun doc => yamlChildByPath srcs.reader doc srcs.path) := by
  rw [nodeEntries, List.flatMap_map]
  rfl

end LogSources

/-! ## Documents that have the path -/

/-- Documents that all have a section are loaded in the same way with a look for it and without. -/
theorem map_eq_filterMap_of_forall {α β : Type} {f : α → β} {g : α → Option β} {l : List α}
    (h : ∀ a ∈ l, some (f a) = g a) : l.map f = l.filterMap g := by
  induction l with
  | nil => rfl
  | cons a l ih =>
      have ha : g a = some (f a) := (h a List.mem_cons_self).symm
      rw [List.map_cons, List.filterMap_cons_some ha,
        ih fun b hb => h b (List.mem_cons_of_mem a hb)]

/-- Every lookup is exact, and the loads read nothing of a document without the section, exactly
    when every document has it. -/
theorem yamlPaths_iff {V : Type} (cfg : ConfigureSources) (srcs : LogSources)
    (hcfg : ReadsIndexes cfg.reader.number) (hsrcs : ReadsIndexes srcs.reader.number)
    (desc : Descriptor V) (path : Bytes) (d : Dump V) (level : Bytes × Bool) :
    ((∀ doc ∈ cfg.documents, some (cfg.childByPath doc path) = cfg.follow doc path) ∧
      cfg.parseConfiguresInto desc path d = cfg.parseSectionsInto desc path d ∧
      (∀ doc ∈ srcs.documents,
        some (yamlChildByPath srcs.reader doc srcs.path) = doc.follow srcs.path) ∧
      srcs.parseYamlLog level = srcs.parseSectionsLog level) ↔
      (∀ doc ∈ cfg.documents, (cfg.follow doc path).isSome = true) ∧
      ∀ doc ∈ srcs.documents, (doc.follow srcs.path).isSome = true := by
  constructor
  · rintro ⟨hlookup, -, hlog, -⟩
    exact ⟨fun doc hdoc => (cfg.childByPath_eq_follow_iff hcfg doc path).1 (hlookup doc hdoc),
      fun doc hdoc => (yamlChildByPath_eq_follow_iff hsrcs doc srcs.path).1 (hlog doc hdoc)⟩
  · rintro ⟨hsections, hlogs⟩
    have hlookup := fun doc hdoc =>
      (cfg.childByPath_eq_follow_iff hcfg doc path).2 (hsections doc hdoc)
    have hlog := fun doc hdoc =>
      (yamlChildByPath_eq_follow_iff hsrcs doc srcs.path).2 (hlogs doc hdoc)
    refine ⟨hlookup, ?_, hlog, ?_⟩
    · have hloads : (cfg.documents.map fun doc => Load.yaml (cfg.childByPath doc path)) =
          cfg.documents.filterMap fun doc => (cfg.follow doc path).map Load.yaml := by
        refine map_eq_filterMap_of_forall fun doc hdoc => ?_
        rw [← hlookup doc hdoc]
        rfl
      rw [ConfigureSources.parseConfiguresInto, ConfigureSources.parseSectionsInto, hloads]
    · rw [LogSources.parseYamlLog, LogSources.parseSectionsLog, LogSources.yamlEntries_eq,
        map_eq_filterMap_of_forall hlog]

/-! ## A path and two documents -/

theorem readsIndexes_decimalReader : ReadsIndexes FieldKind.decimalReader := by
  intro key hkey _
  have hall : key.takeWhile (fun c : Byte => decide (0x30 ≤ c ∧ c ≤ 0x39)) = key := by
    rw [List.takeWhile_eq_self_iff]
    intro c hc
    exact decide_eq_true (hkey.isDigit c hc)
  have hfold : ∀ (ds : Bytes) (n : ℕ),
      ds.foldl (fun (m : Int) c => 10 * m + (c.val - 0x30 : ℕ)) (n : Int) =
        ((ds.foldl (fun m c => m * 10 + (c.val - 0x30)) n : ℕ) : Int) := by
    intro ds
    induction ds with
    | nil => exact fun _ => rfl
    | cons c ds ih =>
        intro n
        rw [List.foldl_cons, List.foldl_cons, ← ih]
        congr 1
        push_cast
        omega
  have hvalue : (FieldKind.decimalReader.str2int key).1 = (digitsValue key : Int) := by
    simp only [FieldKind.decimalReader, hall]
    exact hfold key 0
  rw [hvalue, Int.toNat_natCast]

/-- Reads decimal numbers and no durations. -/
def sampleReader : LogReader := ⟨FieldKind.decimalReader, fun _ => ⟨0, 0⟩⟩

/-- A log of documents at `atapp.log` -/
def sampleLog (documents : List YamlNode) : LogSources where
  reader := sampleReader
  environment := fun _ => []
  environmentPrefix := []
  limit := 0
  root := .node [] []
  path := [ascii "atapp", ascii "log"]
  documents := documents

/-- A configuration without documents -/
def sampleConfigure : ConfigureSources where
  reader := sampleReader
  environment := fun _ => []
  environmentPrefix := []
  limit := 0
  iniRoot := .node [] []
  iniChildByPath := fun _ => none
  documents := []

/-- `level: debug` -/
def levelOnly : YamlNode := .map [(.scalar (ascii "level"), .scalar (ascii "debug"))]

/-- The same as the section `atapp.log` -/
def levelSection : YamlNode :=
  .map [(.scalar (ascii "atapp"), .map [(.scalar (ascii "log"), levelOnly)])]

theorem yamlPaths_levelSection :
    (sampleLog [levelSection]).parseYamlLog ([], false) =
      (sampleLog [levelSection]).parseSectionsLog ([], false) :=
  ((yamlPaths_iff sampleConfigure (sampleLog [levelSection]) readsIndexes_decimalReader
    readsIndexes_decimalReader .nil [] ({} : Dump LogValue) ([], false)).2
    ⟨by simp [sampleConfigure], by
      intro doc hdoc
      obtain rfl := List.mem_singleton.1 hdoc
      rfl⟩).2.2.2

/-- A document without the section gives the log the level that it has at its root. -/
theorem not_yamlPaths_levelOnly :
    ((sampleLog [levelOnly]).parseYamlLog ([], false)).1 = (ascii "debug", true) ∧
      ¬ ((∀ doc ∈ (sampleLog [levelOnly]).documents,
          some (yamlChildByPath (sampleLog [levelOnly]).reader doc (sampleLog [levelOnly]).path) =
            doc.follow (sampleLog [levelOnly]).path) ∧
        (sampleLog [levelOnly]).parseYamlLog ([], false) =
          (sampleLog [levelOnly]).parseSectionsLog ([], false)) := by
  refine ⟨by decide +kernel, ?_⟩
  rintro ⟨hlookup, -⟩
  have hsame := hlookup levelOnly (List.mem_singleton_self _)
  have hnone : levelOnly.follow (sampleLog [levelOnly]).path = none := rfl
  rw [hnone] at hsame
  exact Option.some_ne_none _ hsame

end LibAtapp.Conf
