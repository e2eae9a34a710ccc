import LibAtapp.Modules.KeyPaths
import LibAtapp.Modules.TopologyCallback

set_option autoImplicit false

/-! # Registration keys decode to their app

A delete event carries only the key, and the two `unpack` functions take the id and the name of the
app from its last segment: the name goes up to the last minus and the id follows it. The id is a
decimal number, so a minus in the name does no harm, and the last separator is the one that the
path builders write. The main result says that every key decodes to the app that it was built
for. -/

namespace LibAtapp

namespace ServiceDiscoveryModule

/-! ## The scan -/

/-- Bytes that are no separators leave the start of the last segment where it is. -/
theorem startIdx_foldl_scanKeyByte {text : Bytes} (h : ∀ c ∈ text, isKeySeparator c = false)
    (scan : KeyScan) (n : Nat) :
    ((text.zipIdx n).foldl scanKeyByte scan).startIdx = scan.startIdx := by
  induction text generalizing scan n with
  | nil => rfl
  | cons c text ih =>
    have hbyte : (scanKeyByte scan (c, n)).startIdx = scan.startIdx := by
      rw [scanKeyByte, if_neg (by simp [h c List.mem_cons_self])]
      split <;> rfl
    rw [List.zipIdx_cons, List.foldl_cons, ih fun d hd => h d (List.mem_cons_of_mem c hd), hbyte]

/-- **The scan of a key**: the last segment starts after the front, and the last minus is the one
    before the id. -/
theorem scanKey_key (front : Bytes) {name : Bytes} (hname : ∀ c ∈ name, isKeySeparator c = false)
    (id : Nat) :
    scanKey ((front ++ 0x2f :: name) ++ 0x2d :: decimal id) =
      ⟨front.length + 1, front.length + 1 + name.length⟩ := by
  obtain ⟨hminus, -⟩ := scanKey_minus_decimal (front ++ 0x2f :: name) id
  have hstart : (scanKey ((front ++ 0x2f :: name) ++ 0x2d :: decimal id)).startIdx =
      front.length + 1 := by
    have hrest : ∀ c ∈ name ++ 0x2d :: decimal id, isKeySeparator c = false := by
      intro c hc
      rcases List.mem_append.1 hc with hc | hc
      · exact hname c hc
      · rcases List.mem_cons.1 hc with rfl | hc
        · decide
        · exact (plain_of_mem_decimal hc).1
    rw [List.append_assoc, List.cons_append, scanKey, List.zipIdx_append, List.foldl_append,
      List.zipIdx_cons, List.foldl_cons, startIdx_foldl_scanKeyByte hrest, scanKeyByte,
      if_pos (show isKeySeparator 0x2f = true by decide), Nat.zero_add]
  have hlength : (front ++ 0x2f :: name).length = front.length + 1 + name.length := by
    rw [List.length_append, List.length_cons]
    omega
  generalize scanKey _ = scan at hminus hstart
  cases scan
  simp only at hminus hstart
  rw [hminus, hstart, hlength]

/-! ## Decoding -/

/-- `to_int<uint64_t>` reads the decimal text of every `uint64_t`. -/
def ReadsDecimal (toUint64 : Bytes → Nat) : Prop := ∀ n < 2 ^ 64, toUint64 (decimal n) = n

/-- What both decoders take from a key whose last segment is a name, a minus and an id. -/
theorem key_parts (front name : Bytes) {digits : Bytes} (hdigits : digits ≠ []) :
    let path := (front ++ 0x2f :: name) ++ 0x2d :: digits
    let start := front.length + 1
    let minus := start + name.length
    start < path.length ∧ (minus + 1 < path.length ∧ minus ≥ start) ∧
      path.drop (minus + 1) = digits ∧ (path.drop start).take (minus - start) = name := by
  have hpos := List.length_pos_of_ne_nil hdigits
  have hlength : ((front ++ 0x2f :: name) ++ 0x2d :: digits).length =
      front.length + 1 + name.length + 1 + digits.length := by
    simp only [List.length_append, List.length_cons]
    omega
  have hlast : (front ++ 0x2f :: name) ++ 0x2d :: digits =
      (front ++ 0x2f :: name ++ [0x2d]) ++ digits := by simp
  have hfirst : (front ++ 0x2f :: name) ++ 0x2d :: digits =
      (front ++ [0x2f]) ++ (name ++ 0x2d :: digits) := by simp
  refine ⟨by omega, ⟨by omega, Nat.le_add_right _ _⟩, ?_, ?_⟩
  · rw [hlast]
    exact List.drop_left' (by simp; omega)
  · rw [hfirst, List.drop_left' (by simp), Nat.add_sub_cancel_left]
    exact List.take_left' rfl

/-- The keys of an app are paths whose last segment is its name, a minus and its id. -/
theorem keyPath_eq (dir : KeyDir) (app : App) (path : Bytes) :
    keyPath dir app path =
      ((path ++ dir.text) ++ 0x2f :: app.appName) ++ 0x2d :: decimal app.id := by
  have hslash : ascii "/" = [0x2f] := by decide
  have hminus : ascii "-" = [0x2d] := by decide
  simp [keyPath, App.keyName, hslash, hminus]

/-- **Registration keys decode to the app they encode**: with an empty value, both `unpack`
    functions take from each of its three keys the id and the name of the app. -/
theorem unpack_registrationKey {discovery : DiscoveryCodec} {topology : TopologyCodec}
    (hdiscovery : ReadsDecimal discovery.toUint64) (htopology : ReadsDecimal topology.toUint64)
    (path : Bytes) (app : App) (hname : ∀ c ∈ app.appName, isKeySeparator c = false)
    (hid : app.id < 2 ^ 64) {key : Bytes}
    (hkey : key ∈ [getDiscoveryByIdPath app path, getDiscoveryByNamePath app path,
      getTopologyPath app path])
    (node : NodeInfoT) (info : AtappTopologyInfo) (resetData : Bool) :
    ((unpack discovery node key [] resetData).1.nodeDiscovery.id = app.id ∧
      (unpack discovery node key [] resetData).1.nodeDiscovery.name = app.appName) ∧
    (TopologyModule.unpack topology info key [] resetData).1.id = app.id ∧
      (TopologyModule.unpack topology info key [] resetData).1.name = app.appName := by
  obtain ⟨dir, rfl⟩ : ∃ dir, key = keyPath dir app path := by
    simp only [List.mem_cons, List.not_mem_nil, or_false] at hkey
    rcases hkey with rfl | rfl | rfl
    · exact ⟨.byId, rfl⟩
    · exact ⟨.byName, rfl⟩
    · exact ⟨.topology, rfl⟩
  have hscan := scanKey_key (path ++ dir.text) hname app.id
  obtain ⟨hstart, hminus, hdrop, htake⟩ :=
    key_parts (path ++ dir.text) app.appName (decimal_ne_nil app.id)
  rw [keyPath_eq]
  simp only [unpack, TopologyModule.unpack, unpackKey, TopologyModule.unpackKey, if_true, hscan]
  rw [if_pos hstart, if_pos hminus, if_pos hstart, if_pos hminus]
  simp only [hdrop, htake, cString_decimal]
  exact ⟨⟨hdiscovery _ hid, trivial⟩, htopology _ hid, trivial⟩

/-- The reader of the table codecs reads decimal texts. -/
theorem readsDecimal_tableCodec (table : List AtappDiscovery) :
    ReadsDecimal (tableCodec table).toUint64 := by
  intro n _
  have hall : (decimal n).takeWhile (fun c => 0x30 ≤ c && c ≤ 0x39) = decimal n := by
    rw [List.takeWhile_eq_self_iff]
    intro c hc
    simp [digit_of_mem_decimal hc]
  have hfold : ∀ (digits : List Char) (k : Nat), (∀ d ∈ digits, d.isDigit = true) →
      (digits.map fun d => Fin.ofNat 256 d.toNat).foldl
        (fun n (c : Byte) => 10 * n + (c.val - 0x30)) k = Nat.ofDigitChars 10 digits k := by
    intro digits
    induction digits with
    | nil => exact fun _ _ => rfl
    | cons d digits ih =>
      intro k hdigits
      have hdigit := hdigits d List.mem_cons_self
      simp only [Char.isDigit, Bool.and_eq_true, decide_eq_true_eq, ge_iff_le,
        UInt32.le_iff_toNat_le] at hdigit
      have hhigh : d.toNat ≤ 57 := hdigit.2
      have hval : (Fin.ofNat 256 d.toNat).val = d.toNat := by
        rw [Fin.val_ofNat, Nat.mod_eq_of_lt (by omega)]
      rw [List.map_cons, List.foldl_cons, hval, ih _ fun e he => hdigits e (List.mem_cons_of_mem d he)]
      rfl
  show ((decimal n).takeWhile _).foldl _ 0 = n
  rw [hall, decimal, hfold _ _ fun d hd => Nat.isDigit_of_mem_toDigits (by decide) (by decide) hd]
  exact Nat.ofDigitChars_ten_toDigits

/-- An app `a-1` with id 10 whose configure path has a minus too. -/
theorem unpack_registrationKey_minus :
    let app : App := ⟨ascii "a-1", 10⟩
    let key := getTopologyPath app (ascii "/x-y/")
    ((unpack (tableCodec []) ⟨{}, .put, 0⟩ key [] true).1.nodeDiscovery.id = app.id ∧
      (unpack (tableCodec []) ⟨{}, .put, 0⟩ key [] true).1.nodeDiscovery.name = app.appName) ∧
    (TopologyModule.unpack (tableTopologyCodec []) {} key [] true).1.id = app.id ∧
      (TopologyModule.unpack (tableTopologyCodec []) {} key [] true).1.name = app.appName :=
  unpack_registrationKey (readsDecimal_tableCodec []) (readsDecimal_tableCodec [])
    (ascii "/x-y/") ⟨ascii "a-1", 10⟩ (by decide +kernel) (by decide +kernel) (by simp) _ _ _

end ServiceDiscoveryModule

end LibAtapp
