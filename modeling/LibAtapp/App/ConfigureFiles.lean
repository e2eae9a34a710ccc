import LibAtapp.Conf.Loaders
import LibAtapp.Library.Worklist

set_option autoImplicit false

/-! # Loading the configure files

`reload_all_configure_files` loads the first files and the files that these refer to as
`atapp.config.external`, each in the format that its prefix names or that its content looks like.
The file system is a finite map of parsed files; a file that is not there, or that is asked for in
the other format, cannot be loaded. The values of all INI files are kept in one tree by the INI
loader, of which the results use that the values of a file come behind those of a list. -/

namespace LibAtapp.ConfigureFiles

open Conf

/-! ## Files -/

/-- A file as it is parsed: the values of `atapp.config.external` of an INI file, or the documents
    of a YAML file. -/
inductive ParsedFile
  | ini (external : List Bytes)
  | yaml (documents : List YamlNode)

structure FileSystem where
  files : List (Bytes × ParsedFile)
  /-- `guess_configure_file_is_yaml` -/
  guessConfigureFileIsYaml : Bytes → Bool

/-- A file to load, and its format. -/
structure FileRule where
  path : Bytes
  isYaml : Bool
  deriving DecidableEq, Repr

/-- The place of the colon behind a prefix; an absolute path with a drive has none. -/
def findColon (fileRule : Bytes) : Option Nat :=
  if fileRule.length < 2 ∨ fileRule[1]? ≠ some 0x3a then fileRule.findIdx? (· == 0x3a) else none

/-- The file of a rule. The prefix is compared up to the colon only. -/
def FileSystem.resolve (fs : FileSystem) (fileRule : Bytes) : Option FileRule :=
  if fileRule = [] then none
  else
    match findColon fileRule with
    | some colon =>
      some ⟨fileRule.drop (colon + 1),
        strncaseEq (ascii "yml") fileRule colon || strncaseEq (ascii "yaml") fileRule colon⟩
    | none => some ⟨fileRule, fs.guessConfigureFileIsYaml fileRule⟩

/-! ## Loading -/

/-- `node[key]` of a node that is not constant, which throws `BadSubscript` for a scalar. -/
def subscript (node : YamlNode) (key : Bytes) : Option (Option YamlNode) :=
  match node with
  | .scalar _ => none
  | node => some (node.child key)

/-- `IsMap` -/
def isMap : YamlNode → Bool
  | .map _ => true
  | _ => false

/-- The files that are pushed for a document. -/
def pushDocument (document : YamlNode) : Option (List Bytes) := do
  match ← subscript document (ascii "atapp") with
  | none => return []
  | some atappNode =>
    if !isMap atappNode then return []
    else
      match atappNode.child (ascii "config") with
      | none => return []
      | some atappConfig =>
        if !isMap atappConfig then return []
        else
          match atappNode.child (ascii "external") with
          | none => return []
          | some _ =>
            match atappConfig with
            | .sequence items => return items.filterMap fun item =>
                match item with
                | .scalar text => if text = [] then none else some text
                | _ => none
            | .scalar text => return if text = [] then [] else [text]
            | _ => return []

/-- The files that are pushed for documents, up to the first that throws, and whether none does. -/
def pushDocuments : List YamlNode → List Bytes × Bool
  | [] => ([], true)
  | document :: documents =>
    match pushDocument document with
    | none => ([], false)
    | some external =>
      let rest := pushDocuments documents
      (external ++ rest.1, rest.2)

/-- The variables of the loop: the list under `atapp.config.external` in the tree of the INI files,
    and the result. -/
structure LoadState where
  external : List Bytes := []
  ret : Bool := true
  deriving DecidableEq

-- `ini_loader::load_file(path, false)` of the INI library, as it changes a list of the tree: from
-- the values before and those that the file has for it
variable (loadFile : List Bytes → List Bytes → List Bytes)

/-- A file that is loaded into a tree that is not cleared adds its values behind those of a list. -/
def Appends : Prop := ∀ external values, loadFile external values = external ++ values

/-- The body of the loop, from the check of the loaded files on. -/
def load (fs : FileSystem) (s : LoadState) (rule : FileRule) : LoadState × List Bytes :=
  if rule.isYaml then
    match fs.files.lookup rule.path with
    | some (.yaml documents) =>
      let pushed := pushDocuments documents
      ({ s with ret := s.ret && pushed.2 }, pushed.1)
    | _ => ({ s with ret := false }, [])
  else
    let confExternalLoadedIndex := s.external.length
    match fs.files.lookup rule.path with
    | some (.ini external) =>
      let merged := loadFile s.external external
      ({ s with external := merged }, merged.drop confExternalLoadedIndex)
    | _ => ({ s with ret := false }, [])

theorem load_bounded (fs : FileSystem) (s : LoadState) (rule : FileRule)
    (h : rule.path ∉ fs.files.map Prod.fst) : (load loadFile fs s rule).2 = [] := by
  have hnone : fs.files.lookup rule.path = none := by
    rw [List.lookup_eq_none_iff]
    intro entry hentry
    exact bne_iff_ne.2 fun heq => h (heq ▸ List.mem_map_of_mem hentry)
  unfold load
  rw [hnone]
  split <;> rfl

/-- The loop of `reload_all_configure_files`. -/
def configureFiles (fs : FileSystem) : Worklist Bytes Bytes FileRule LoadState where
  resolve := fs.resolve
  key := FileRule.path
  visit := load loadFile fs
  growing := fs.files.map Prod.fst
  bounded := load_bounded loadFile fs

/-- `reload_all_configure_files`: the result, and the files that were loaded in order. -/
def reloadAllConfigureFiles (fs : FileSystem) (pendingLoadFiles : List Bytes) :
    Bool × List FileRule :=
  let result := (configureFiles loadFile fs).loop {} [] pendingLoadFiles
  (result.1.ret, result.2)

/-! ## References -/

/-- The text of a scalar. -/
def scalarText : YamlNode → Option Bytes
  | .scalar text => some text
  | _ => none

/-- The files that a document refers to: one, or a sequence. -/
def yamlReferences (document : YamlNode) : List Bytes :=
  match ((document.child (ascii "atapp")).bind (·.child (ascii "config"))).bind
      (·.child (ascii "external")) with
  | some (.scalar text) => [text]
  | some (.sequence items) => items.filterMap scalarText
  | _ => []

/-- The files that a file refers to. -/
def references (fs : FileSystem) (rule : FileRule) : List Bytes :=
  match fs.files.lookup rule.path, rule.isYaml with
  | some (.ini external), false => external
  | some (.yaml documents), true => documents.flatMap yamlReferences
  | _, _ => []

/-- The file is there in its format. -/
def CanLoad (fs : FileSystem) (rule : FileRule) : Prop :=
  match fs.files.lookup rule.path, rule.isYaml with
  | some (.ini _), false => True
  | some (.yaml _), true => True
  | _, _ => False

/-- A file of the closure of the first files. -/
abbrev InClosure (fs : FileSystem) (start : List Bytes) : FileRule → Prop :=
  Worklist.Closure fs.resolve (references fs) start

/-- The files are loaded as a closure: every path once, the files of the closure, with success
    exactly if all of them can be loaded. -/
structure LoadsClosure (fs : FileSystem) (start : List Bytes) (result : Bool × List FileRule) :
    Prop where
  once : (result.2.map FileRule.path).Nodup
  loaded : ∀ rule, rule ∈ result.2 ↔ InClosure fs start rule
  success : result.1 = true ↔ ∀ rule, InClosure fs start rule → CanLoad fs rule

/-! ## What the loop follows -/

/-- The references that the loop follows: those of INI files. -/
def followed (fs : FileSystem) (rule : FileRule) : List Bytes :=
  if rule.isYaml then [] else references fs rule

/-- A node that is a map is neither a sequence nor a scalar, so nothing is pushed. -/
theorem pushDocument_eq_nil {document : YamlNode} {external : List Bytes}
    (h : pushDocument document = some external) : external = [] := by
  unfold pushDocument at h
  cases hsub : subscript document (ascii "atapp") with
  | none =>
    rw [hsub] at h
    cases h
  | some atappNode =>
    rw [hsub] at h
    cases atappNode with
    | none =>
      cases h
      rfl
    | some atappNode =>
      by_cases hnode : isMap atappNode
      · cases hconfig : atappNode.child (ascii "config") with
        | none => simp_all
        | some atappConfig =>
          cases atappConfig with
          | map entries => cases hexternal : atappNode.child (ascii "external") <;> simp_all [isMap]
          | _ => simp_all [isMap]
      · simp_all

theorem pushDocuments_fst (documents : List YamlNode) : (pushDocuments documents).1 = [] := by
  induction documents with
  | nil => rfl
  | cons document documents ih =>
    rw [pushDocuments]
    cases hpush : pushDocument document with
    | none => rfl
    | some external =>
      show external ++ (pushDocuments documents).1 = []
      rw [pushDocument_eq_nil hpush, ih]
      rfl

/-- A document that is a scalar. -/
def IsScalar (document : YamlNode) : Prop := ∃ text, document = .scalar text

theorem pushDocument_eq_none_iff (document : YamlNode) :
    pushDocument document = none ↔ IsScalar document := by
  unfold pushDocument IsScalar
  cases document with
  | scalar text => simp [subscript]
  | _ =>
    simp only [subscript, Option.bind_eq_bind, Option.bind_some, reduceCtorEq, exists_false, iff_false]
    repeat' split
    all_goals exact Option.some_ne_none _

theorem pushDocuments_snd (documents : List YamlNode) :
    (pushDocuments documents).2 = true ↔ ∀ document ∈ documents, ¬ IsScalar document := by
  induction documents with
  | nil => simp [pushDocuments]
  | cons document documents ih =>
    have hscalar := pushDocument_eq_none_iff document
    rw [pushDocuments, List.forall_mem_cons, ← ih]
    cases hpush : pushDocument document with
    | none => simp [← hscalar, hpush]
    | some external => simp [← hscalar, hpush]

theorem load_snd {loadFile : List Bytes → List Bytes → List Bytes} (happends : Appends loadFile)
    (fs : FileSystem) (s : LoadState) (rule : FileRule) :
    (load loadFile fs s rule).2 = followed fs rule := by
  unfold load followed references
  by_cases hyaml : rule.isYaml = true
  · simp only [hyaml, if_true]
    split
    · exact pushDocuments_fst _
    · rfl
  · simp only [hyaml]
    cases hfile : fs.files.lookup rule.path with
    | none => rfl
    | some file =>
      cases file with
      | ini external => simp [happends s.external external]
      | yaml documents => rfl

/-- A file is loaded without a failure. -/
def Succeeds (fs : FileSystem) (rule : FileRule) : Prop :=
  CanLoad fs rule ∧ ∀ documents, rule.isYaml = true →
    fs.files.lookup rule.path = some (.yaml documents) → ∀ document ∈ documents, ¬ IsScalar document

theorem load_ret (fs : FileSystem) (s : LoadState) (rule : FileRule) :
    (load loadFile fs s rule).1.ret = true ↔ s.ret = true ∧ Succeeds fs rule := by
  unfold load Succeeds CanLoad
  by_cases hyaml : rule.isYaml = true
  · simp only [hyaml, if_true]
    cases hfile : fs.files.lookup rule.path with
    | none => simp
    | some file =>
      cases file with
      | ini external => simp
      | yaml documents => simp [pushDocuments_snd]
  · simp only [hyaml]
    cases hfile : fs.files.lookup rule.path with
    | none => simp
    | some file => cases file <;> simp

theorem foldl_load_ret (fs : FileSystem) (s : LoadState) (rules : List FileRule) :
    (rules.foldl (fun s rule => (load loadFile fs s rule).1) s).ret = true ↔
      s.ret = true ∧ ∀ rule ∈ rules, Succeeds fs rule := by
  induction rules generalizing s with
  | nil => simp
  | cons rule rules ih =>
    rw [List.foldl_cons, ih, load_ret, List.forall_mem_cons, and_assoc]

/-! ## When the closure is loaded -/

/-- A file that the loop can come to: a first file, or one that INI files lead to. -/
abbrev Followed (fs : FileSystem) (start : List Bytes) : FileRule → Prop :=
  Worklist.Closure fs.resolve (followed fs) start

theorem Followed.inClosure {fs : FileSystem} {start : List Bytes} {rule : FileRule}
    (h : Followed fs start rule) : InClosure fs start rule :=
  h.mono fun rule item hmem => by
    unfold followed at hmem
    split at hmem
    · cases hmem
    · exact hmem

/-- Nothing is lost: no path is asked for in both formats, what a YAML file refers to is loaded
    anyway, and no document that could be loaded is a scalar. -/
structure LosesNothing (fs : FileSystem) (start : List Bytes) : Prop where
  oneFormat : ∀ a b, InClosure fs start a → InClosure fs start b → a.path = b.path → a = b
  yamlCovered : ∀ rule, Followed fs start rule → rule.isYaml = true →
    ∀ item ∈ references fs rule, ∀ next, fs.resolve item = some next → Followed fs start next
  noScalar : (∀ rule, InClosure fs start rule → CanLoad fs rule) →
    ∀ rule documents, InClosure fs start rule → rule.isYaml = true →
      fs.files.lookup rule.path = some (.yaml documents) →
        ∀ document ∈ documents, ¬ IsScalar document

/-- Where YAML files refer to nothing else, the closure is what the loop follows. -/
theorem InClosure.followed {fs : FileSystem} {start : List Bytes}
    (hcovered : ∀ rule, Followed fs start rule → rule.isYaml = true →
      ∀ item ∈ references fs rule, ∀ next, fs.resolve item = some next → Followed fs start next)
    {rule : FileRule} (h : InClosure fs start rule) : Followed fs start rule := by
  refine h.least (fun item hmem node hres => .start hmem hres) fun node _ hnode item hmem next hres => ?_
  by_cases hyaml : node.isYaml = true
  · exact hcovered node hnode hyaml item hmem next hres
  · have hfollow : item ∈ ConfigureFiles.followed fs node := by
      rwa [ConfigureFiles.followed, if_neg hyaml]
    exact hnode.follow hfollow hres

/-- What is loaded, and the result. -/
theorem exists_loaded {loadFile : List Bytes → List Bytes → List Bytes}
    (happends : Appends loadFile) (fs : FileSystem) (start : List Bytes) :
    ∃ loaded, reloadAllConfigureFiles loadFile fs start =
        ((loaded.foldl (fun s rule => (load loadFile fs s rule).1) {}).ret, loaded) ∧
      Worklist.Visits (configureFiles loadFile fs) (followed fs) {} start loaded := by
  obtain ⟨loaded, hvisits⟩ := Worklist.exists_visits
    (w := configureFiles loadFile fs) (fun s rule => load_snd happends fs s rule) {} start
  refine ⟨loaded, ?_, hvisits⟩
  rw [reloadAllConfigureFiles, hvisits.result]
  rfl

/-- **The configure files are loaded as a closure** exactly if nothing is lost, for every file
    system and every list of first files. -/
theorem reloadAllConfigureFiles_loadsClosure_iff {loadFile : List Bytes → List Bytes → List Bytes}
    (happends : Appends loadFile) (fs : FileSystem) (start : List Bytes) :
    LoadsClosure fs start (reloadAllConfigureFiles loadFile fs start) ↔ LosesNothing fs start := by
  obtain ⟨visited, hreload, -, hdistinct, hfollowed, hcomplete⟩ := exists_loaded happends fs start
  have hret := foldl_load_ret loadFile fs {} visited
  rw [hreload]
  constructor
  · rintro ⟨honce, hloaded, hsuccess⟩
    have hall : ∀ rule, InClosure fs start rule → Followed fs start rule := fun rule hrule =>
      hfollowed rule ((hloaded rule).2 hrule)
    refine ⟨fun a b ha hb heq => ?_, fun rule hrule hyaml item hmem next hres => ?_,
      fun hcan rule documents hrule hyaml hfile => ?_⟩
    · exact List.inj_on_of_nodup_map honce ((hloaded a).2 ha) ((hloaded b).2 hb) heq
    · exact hall next (hrule.inClosure.follow hmem hres)
    · exact ((hret.1 (hsuccess.2 hcan)).2 rule ((hloaded rule).2 hrule)).2 documents hyaml hfile
  · rintro ⟨hone, hcovered, hnoScalar⟩
    have hloaded : ∀ rule, rule ∈ visited ↔ InClosure fs start rule := by
      refine fun rule => ⟨fun hrule => Followed.inClosure (hfollowed rule hrule), fun hrule => ?_⟩
      exact hcomplete (fun a b ha hb heq => hone a b (Followed.inClosure ha) (Followed.inClosure hb) heq)
        rule (hrule.followed hcovered)
    refine ⟨hdistinct, hloaded, ?_⟩
    rw [hret]
    constructor
    · exact fun h rule hrule => (h.2 rule ((hloaded rule).2 hrule)).1
    · intro hcan
      refine ⟨rfl, fun rule hrule => ⟨hcan rule ((hloaded rule).1 hrule), fun documents hyaml => ?_⟩⟩
      exact hnoScalar hcan rule documents ((hloaded rule).1 hrule) hyaml

/-- Two INI files that refer to each other, and to a YAML file that refers to nothing. -/
def iniCycle : FileSystem where
  files :=
    [(ascii "a.conf", .ini [ascii "b.conf", ascii "a.conf"]),
      (ascii "b.conf", .ini [ascii "a.conf", ascii "yml:c.yaml"]),
      (ascii "c.yaml", .yaml [.map []])]
  guessConfigureFileIsYaml _ := false

def iniCycleRules : List FileRule :=
  [⟨ascii "a.conf", false⟩, ⟨ascii "b.conf", false⟩, ⟨ascii "c.yaml", true⟩]

theorem InClosure.mem_iniCycleRules {rule : FileRule}
    (h : InClosure iniCycle [ascii "a.conf"] rule) : rule ∈ iniCycleRules := by
  have hnext : ∀ node ∈ iniCycleRules, ∀ item ∈ references iniCycle node,
      ∀ next ∈ iniCycle.resolve item, next ∈ iniCycleRules := by
    decide
  refine h.least (by decide) ?_
  intro node _ hnode item hitem next hres
  exact hnext node hnode item hitem next hres

/-- Where the loader appends, the files of the cycle are loaded once each. -/
theorem reloadAllConfigureFiles_loadsClosure_iff_iniCycle :
    LoadsClosure iniCycle [ascii "a.conf"]
      (reloadAllConfigureFiles List.append iniCycle [ascii "a.conf"]) := by
  refine (reloadAllConfigureFiles_loadsClosure_iff (fun _ _ => rfl) iniCycle _).2 ⟨?_, ?_, ?_⟩
  · intro a b ha hb
    have hpaths : ∀ a ∈ iniCycleRules, ∀ b ∈ iniCycleRules, a.path = b.path → a = b := by decide
    exact hpaths a ha.mem_iniCycleRules b hb.mem_iniCycleRules
  · intro rule hrule hyaml item hitem
    have hnone : ∀ rule ∈ iniCycleRules, rule.isYaml = true → references iniCycle rule = [] := by
      decide
    rw [hnone rule hrule.inClosure.mem_iniCycleRules hyaml] at hitem
    cases hitem
  · intro _ rule documents hrule hyaml hfile document hdocument
    have honly : ∀ rule ∈ iniCycleRules, rule.isYaml = true → rule = ⟨ascii "c.yaml", true⟩ := by
      decide
    rw [honly rule hrule.mem_iniCycleRules hyaml] at hfile
    have hmap : [.map []] = documents := ParsedFile.yaml.inj (Option.some.inj hfile)
    rw [← hmap, List.mem_singleton] at hdocument
    rintro ⟨text, htext⟩
    rw [hdocument] at htext
    cases htext

/-- A YAML file that refers to an INI file. -/
def yamlAndIni : FileSystem where
  files :=
    [(ascii "a.yaml", .yaml [.map [(.scalar (ascii "atapp"), .map [(.scalar (ascii "config"),
        .map [(.scalar (ascii "external"), .scalar (ascii "b.conf"))])])]]),
      (ascii "b.conf", .ini [])]
  guessConfigureFileIsYaml path := path == ascii "a.yaml"

/-- The INI file is not loaded. -/
theorem not_loadsClosure_yamlAndIni :
    ¬ LoadsClosure yamlAndIni [ascii "a.yaml"]
      (reloadAllConfigureFiles List.append yamlAndIni [ascii "a.yaml"]) := by
  intro h
  have hfirst : InClosure yamlAndIni [ascii "a.yaml"] ⟨ascii "a.yaml", true⟩ :=
    .start List.mem_cons_self (by decide)
  have hsecond : InClosure yamlAndIni [ascii "a.yaml"] ⟨ascii "b.conf", false⟩ :=
    hfirst.follow (show ascii "b.conf" ∈ references yamlAndIni _ by decide) (by decide)
  obtain ⟨visited, hreload, -, -, hfollowed, -⟩ :=
    @exists_loaded List.append (fun _ _ => rfl) yamlAndIni [ascii "a.yaml"]
  rw [hreload] at h
  have hend := hfollowed _ ((h.loaded _).2 hsecond)
  -- the loop comes to the YAML file only
  have honly : (⟨ascii "b.conf", false⟩ : FileRule) = ⟨ascii "a.yaml", true⟩ := by
    refine Worklist.Closure.least (p := fun rule => rule = ⟨ascii "a.yaml", true⟩) ?_ ?_ hend
    · intro item hitem node hres
      obtain rfl := List.mem_singleton.1 hitem
      exact (Option.some.inj hres).symm
    · rintro _ - rfl item hitem
      cases hitem
  revert honly
  decide

end LibAtapp.ConfigureFiles
