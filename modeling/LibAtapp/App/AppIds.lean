import LibAtapp.Protocol
import Mathlib.Data.List.Forall2
import Mathlib.Tactic.Ring

set_option autoImplicit false

/-! # App ids as texts

An app id is written as the numbers of its bit fields with dots between them, the first field in
the highest bits. `convert_app_id_to_string` takes the fields off the low end of the id, from the
last to the first; `convert_app_id_by_string` shifts them in from the first to the last. A text
without a dot is the id itself. -/

namespace LibAtapp.AppIds

/-! ## 64-bit arithmetic -/

/-- `a << n` on `uint64_t`, for `n` below 64 -/
def shiftLeft64 (a n : ℕ) : ℕ := a <<< n % 2 ^ 64

/-- `(static_cast<app_id_t>(1) << n) - 1` -/
def lowMask (n : ℕ) : ℕ := (shiftLeft64 1 n + (2 ^ 64 - 1)) % 2 ^ 64

theorem lowMask_eq {n : ℕ} (h : n ≤ 63) : lowMask n = 2 ^ n - 1 := by
  have hpow : 2 ^ n ≤ 2 ^ 63 := Nat.pow_le_pow_right (by decide) h
  have hpos : 0 < 2 ^ n := Nat.two_pow_pos n
  have hshift : 2 ^ n % 2 ^ 64 = 2 ^ n := Nat.mod_eq_of_lt (by omega)
  rw [lowMask, shiftLeft64, Nat.one_shiftLeft, hshift]
  omega

theorem and_lowMask (x : ℕ) {n : ℕ} (h : n ≤ 63) : x &&& lowMask n = x % 2 ^ n := by
  rw [lowMask_eq h, Nat.and_two_pow_sub_one_eq_mod]

/-- A field is shifted in below what is there already. -/
theorem shiftLeft64_or {a x n : ℕ} (hx : x < 2 ^ n) (h : a * 2 ^ n + x < 2 ^ 64) :
    shiftLeft64 a n ||| x = a * 2 ^ n + x := by
  have hshift : a <<< n = a * 2 ^ n := Nat.shiftLeft_eq a n
  rw [shiftLeft64, Nat.mod_eq_of_lt (by omega), ← Nat.shiftLeft_add_eq_or_of_lt hx, hshift]

/-! ## The functions -/

def dot : Byte := 0x2e

/-- What `split_ids_by_string` skips before a number -/
def isSpace (c : Byte) : Bool := c = 0x20 || c = 0x09 || c = 0x0d || c = 0x0a

section Functions

-- `atfw::util::string::to_int<app_id_t>`, which reads the number at the front of a text
variable (toInt : Bytes → ℕ)

/-- The loop of `split_ids_by_string` over a text up to its NUL -/
def splitLoop : Bytes → List ℕ
  | [] => []
  | c :: rest =>
    if isSpace c then splitLoop rest
    else toInt (c :: rest) :: splitLoop ((c :: rest).dropWhile (· ≠ dot)).tail
termination_by text => text.length
decreasing_by
  · simp
  · have hle := (List.dropWhile_suffix (l := c :: rest) (· ≠ dot)).length_le
    simp only [List.length_tail, List.length_cons] at hle ⊢
    omega

/-- `app::split_ids_by_string`; `none` is the null pointer. -/
def splitIdsByString : Option Bytes → List ℕ
  | none => []
  | some text => splitLoop toInt text

/-- The loop of `convert_app_id_by_string` over the ids and the mask -/
def packLoop : ℕ → List ℕ → List ℕ → ℕ
  | ret, id :: ids, w :: mask => packLoop (shiftLeft64 ret w ||| (id &&& lowMask w)) ids mask
  | ret, _, _ => ret

/-- `app::convert_app_id_by_string` with the mask as a vector -/
def convertAppIdByString (idIn : Option Bytes) (maskIn : List ℕ) : ℕ :=
  match idIn with
  | none => 0
  | some [] => 0
  | some text =>
    if maskIn = [] ∨ dot ∉ text then toInt text
    else packLoop 0 (splitIdsByString toInt (some text)) maskIn

/-- `app::convert_app_id_by_string` with the mask as a text -/
def convertAppIdByStringText (idIn maskIn : Option Bytes) : ℕ :=
  match idIn with
  | none => 0
  | some [] => 0
  | some text => convertAppIdByString toInt (some text) (splitIdsByString toInt maskIn)

/-- The first loop of `convert_app_id_to_string`, which goes from the last field to the first: the
    fields, and what is left of the id. -/
def unpackLoop (mask : List ℕ) (idIn : ℕ) : List ℕ × ℕ :=
  mask.foldr (fun w (ids, id) => ((id &&& lowMask w) :: ids, id >>> w)) ([], idIn)

/-- A number in lower case hexadecimal, as `std::hex` writes it. -/
def hexadecimal (n : ℕ) : Bytes := (Nat.toDigits 16 n).map fun c => Fin.ofNat 256 c.toNat

/-- A field as the second loop writes it -/
def fieldText (hex : Bool) (n : ℕ) : Bytes :=
  if hex then ascii "0x" ++ hexadecimal n else decimal n

/-- Texts with dots between them -/
def dotted : List Bytes → Bytes
  | [] => []
  | [text] => text
  | text :: texts => text ++ dot :: dotted texts

/-- `app::convert_app_id_to_string` with the mask as a vector -/
def convertAppIdToString (idIn : ℕ) (maskIn : List ℕ) (hex : Bool) : Bytes :=
  dotted ((unpackLoop maskIn idIn).1.map (fieldText hex))

/-- `app::convert_app_id_to_string` with the mask as a text -/
def convertAppIdToStringText (idIn : ℕ) (maskIn : Option Bytes) (hex : Bool) : Bytes :=
  convertAppIdToString idIn (splitIdsByString toInt maskIn) hex

end Functions

/-! ## Fields -/

section Fields

theorem unpackLoop_cons (w : ℕ) (mask : List ℕ) (id : ℕ) :
    unpackLoop (w :: mask) id =
      (((unpackLoop mask id).2 &&& lowMask w) :: (unpackLoop mask id).1,
        (unpackLoop mask id).2 >>> w) :=
  rfl

/-- The fields that are taken off an id leave its upper bits. -/
theorem unpackLoop_snd (mask : List ℕ) (id : ℕ) : (unpackLoop mask id).2 = id / 2 ^ mask.sum := by
  induction mask with
  | nil => simp [unpackLoop]
  | cons w mask ih =>
      rw [unpackLoop_cons, ih, Nat.shiftRight_eq_div_pow, Nat.div_div_eq_div_mul, ← Nat.pow_add,
        Nat.add_comm, List.sum_cons]

/-- Room for the fields of a mask above `ret` is room for those after the first above the first. -/
theorem room_cons {ret x w S : ℕ} (hx : x < 2 ^ w) (h : (ret + 1) * 2 ^ (w + S) ≤ 2 ^ 64) :
    (ret * 2 ^ w + x + 1) * 2 ^ S ≤ 2 ^ 64 ∧ ret * 2 ^ w + x < 2 ^ 64 := by
  have hroom : (ret * 2 ^ w + x + 1) * 2 ^ S ≤ 2 ^ 64 := by
    calc (ret * 2 ^ w + x + 1) * 2 ^ S ≤ (ret * 2 ^ w + 2 ^ w) * 2 ^ S :=
          Nat.mul_le_mul_right _ (by omega)
      _ = (ret + 1) * 2 ^ (w + S) := by ring
      _ ≤ 2 ^ 64 := h
  have hle : (ret * 2 ^ w + x + 1) * 1 ≤ (ret * 2 ^ w + x + 1) * 2 ^ S :=
    Nat.mul_le_mul_left _ (Nat.two_pow_pos S)
  exact ⟨hroom, by omega⟩

/-- Packing appends the fields of an id to what is there. -/
theorem packLoop_unpackLoop {mask : List ℕ} (hmask : ∀ w ∈ mask, w ≤ 63) {ret : ℕ} (id : ℕ)
    (h : (ret + 1) * 2 ^ mask.sum ≤ 2 ^ 64) :
    packLoop ret (unpackLoop mask id).1 mask = ret * 2 ^ mask.sum + id % 2 ^ mask.sum := by
  induction mask generalizing ret with
  | nil => simp [unpackLoop, packLoop, Nat.mod_one]
  | cons w mask ih =>
      have hw : w ≤ 63 := hmask w List.mem_cons_self
      rw [List.sum_cons] at h ⊢
      have hfield : id / 2 ^ mask.sum % 2 ^ w < 2 ^ w := Nat.mod_lt _ (Nat.two_pow_pos w)
      obtain ⟨hroom, hlt⟩ := room_cons hfield h
      rw [unpackLoop_cons, unpackLoop_snd, and_lowMask _ hw, packLoop, and_lowMask _ hw,
        Nat.mod_mod, shiftLeft64_or hfield hlt,
        ih (fun v hv => hmask v (List.mem_cons_of_mem w hv)) hroom]
      calc (ret * 2 ^ w + id / 2 ^ mask.sum % 2 ^ w) * 2 ^ mask.sum + id % 2 ^ mask.sum
          = ret * 2 ^ (w + mask.sum) +
              (id % 2 ^ mask.sum + 2 ^ mask.sum * (id / 2 ^ mask.sum % 2 ^ w)) := by ring
        _ = ret * 2 ^ (w + mask.sum) + id % 2 ^ (w + mask.sum) := by
          rw [Nat.add_comm w, Nat.pow_add 2 mask.sum w, Nat.mod_mul]

/-- Taking the fields off a packed id gives them back, and what was there before them. -/
theorem unpackLoop_packLoop {ids mask : List ℕ} (hmask : ∀ w ∈ mask, w ≤ 63)
    (hids : List.Forall₂ (fun v w => v < 2 ^ w) ids mask) {ret : ℕ}
    (h : (ret + 1) * 2 ^ mask.sum ≤ 2 ^ 64) :
    unpackLoop mask (packLoop ret ids mask) = (ids, ret) := by
  induction hids generalizing ret with
  | nil => rfl
  | @cons v w ids mask hv hids ih =>
      have hw : w ≤ 63 := hmask w List.mem_cons_self
      rw [List.sum_cons] at h
      obtain ⟨hroom, hlt⟩ := room_cons hv h
      have hrest := ih (fun u hu => hmask u (List.mem_cons_of_mem w hu)) hroom
      rw [packLoop, and_lowMask _ hw, Nat.mod_eq_of_lt hv, shiftLeft64_or hv hlt, unpackLoop_cons,
        hrest, and_lowMask _ hw, Nat.shiftRight_eq_div_pow]
      have hmod : (ret * 2 ^ w + v) % 2 ^ w = v := by
        rw [Nat.mul_add_mod', Nat.mod_eq_of_lt hv]
      have hdiv : (ret * 2 ^ w + v) / 2 ^ w = ret := by
        rw [Nat.add_comm, Nat.add_mul_div_right _ _ (Nat.two_pow_pos w), Nat.div_eq_of_lt hv,
          Nat.zero_add]
      rw [hmod, hdiv]

/-- Each field fits its width. -/
theorem fields_unpackLoop {mask : List ℕ} (hmask : ∀ w ∈ mask, w ≤ 63) (id : ℕ) :
    List.Forall₂ (fun v w => v < 2 ^ w) (unpackLoop mask id).1 mask := by
  induction mask with
  | nil => exact .nil
  | cons w mask ih =>
      rw [unpackLoop_cons, and_lowMask _ (hmask w List.mem_cons_self)]
      exact .cons (Nat.mod_lt _ (Nat.two_pow_pos w))
        (ih fun v hv => hmask v (List.mem_cons_of_mem w hv))

end Fields

/-! ## Texts -/

section Texts

variable {toInt : Bytes → ℕ}

/-- What follows a number in a text of numbers with dots between them. -/
def Ends (rest : Bytes) : Prop := rest = [] ∨ ∃ tail, rest = dot :: tail

/-- A text that `to_int` reads as the number `n`, at the end of a text and before a dot. -/
structure NumberText (toInt : Bytes → ℕ) (text : Bytes) (n : ℕ) : Prop where
  starts : ∃ c tail, text = c :: tail ∧ isSpace c = false
  noDot : dot ∉ text
  value : ∀ rest, Ends rest → toInt (text ++ rest) = n

theorem NumberText.ne_nil {text : Bytes} {n : ℕ} (h : NumberText toInt text n) : text ≠ [] := by
  obtain ⟨c, tail, rfl, -⟩ := h.starts
  exact List.cons_ne_nil c tail

theorem dotted_cons (text : Bytes) {texts : List Bytes} (h : texts ≠ []) :
    dotted (text :: texts) = text ++ dot :: dotted texts := by
  cases texts with
  | nil => exact absurd rfl h
  | cons next texts => rfl

theorem convertAppIdByString_some {text : Bytes} (h : text ≠ []) (mask : List ℕ) :
    convertAppIdByString toInt (some text) mask =
      if mask = [] ∨ dot ∉ text then toInt text else packLoop 0 (splitLoop toInt text) mask := by
  cases text with
  | nil => exact absurd rfl h
  | cons c text => rfl

/-- One round of the splitting loop -/
theorem splitLoop_append {text rest : Bytes} {n : ℕ} (h : NumberText toInt text n)
    (hrest : Ends rest) : splitLoop toInt (text ++ rest) = n :: splitLoop toInt rest.tail := by
  have hvalue := h.value rest hrest
  have hdrop : (text ++ rest).dropWhile (· ≠ dot) = rest := by
    have hall : ∀ c ∈ text, decide (c ≠ dot) = true := by
      intro c hc
      have hne : c ≠ dot := fun he => h.noDot (he ▸ hc)
      simpa using hne
    rw [List.dropWhile_append_of_pos hall]
    obtain rfl | ⟨tail, rfl⟩ := hrest
    · rfl
    · simp
  obtain ⟨c, tail, rfl, hspace⟩ := h.starts
  rw [List.cons_append] at hvalue hdrop ⊢
  rw [splitLoop, hspace, if_neg Bool.false_ne_true, hvalue, hdrop]

theorem splitLoop_dotted {texts : List Bytes} {ns : List ℕ}
    (h : List.Forall₂ (NumberText toInt) texts ns) : splitLoop toInt (dotted texts) = ns := by
  induction h with
  | nil => rw [dotted, splitLoop]
  | @cons text n texts ns htext hrest ih =>
      cases texts with
      | nil =>
          cases hrest
          have hlast := splitLoop_append htext (Or.inl rfl)
          rwa [List.append_nil, List.tail_nil, splitLoop] at hlast
      | cons next texts =>
          rw [dotted_cons text (List.cons_ne_nil next texts),
            splitLoop_append htext (Or.inr ⟨_, rfl⟩), List.tail_cons, ih]

/-- The id of a text of numbers, of which there are as many as the mask has fields. -/
theorem convertAppIdByString_dotted {texts : List Bytes} {ns mask : List ℕ}
    (htexts : List.Forall₂ (NumberText toInt) texts ns)
    (hns : List.Forall₂ (fun n w => n < 2 ^ w) ns mask) (hmask : ∀ w ∈ mask, w ≤ 63)
    (hne : mask ≠ []) :
    convertAppIdByString toInt (some (dotted texts)) mask = packLoop 0 ns mask := by
  cases hns with
  | nil => exact absurd rfl hne
  | @cons n w ns mask hn hns =>
      cases htexts with
      | @cons text _ texts _ htext hrest =>
          have hsplit := splitLoop_dotted (.cons htext hrest)
          cases texts with
          | nil =>
              -- one field: a text without a dot is the id itself
              cases hrest
              cases hns
              have hvalue := htext.value [] (Or.inl rfl)
              have hpack : packLoop 0 [n] [w] = n := by
                simp [packLoop, and_lowMask n (hmask w List.mem_cons_self), Nat.mod_eq_of_lt hn,
                  shiftLeft64]
              rw [List.append_nil] at hvalue
              rw [hpack, dotted, convertAppIdByString_some htext.ne_nil,
                if_pos (Or.inr htext.noDot), hvalue]
          | cons next texts =>
              have hmany := dotted_cons text (List.cons_ne_nil next texts)
              have hdot : dot ∈ dotted (text :: next :: texts) := by simp [hmany]
              have hsome : dotted (text :: next :: texts) ≠ [] := List.ne_nil_of_mem hdot
              rw [convertAppIdByString_some hsome, hsplit, if_neg]
              rintro (hnil | hno)
              · exact absurd hnil (List.cons_ne_nil w mask)
              · exact hno hdot

end Texts

/-! ## Round trips -/

/-- `to_int` reads the numbers that `std::stringstream` writes in decimal and, after `0x`, in
    hexadecimal. -/
structure ReadsNumbers (toInt : Bytes → ℕ) : Prop where
  decimal : ∀ n < 2 ^ 64, ∀ rest, Ends rest → toInt (decimal n ++ rest) = n
  hexadecimal : ∀ n < 2 ^ 64, ∀ rest, Ends rest → toInt (ascii "0x" ++ hexadecimal n ++ rest) = n

/-- The two directions between ids and texts of a mask. -/
structure RoundTrips (toInt : Bytes → ℕ) (mask : List ℕ) (byString : Bytes → ℕ)
    (toString : ℕ → Bool → Bytes) : Prop where
  id : ∀ id < 2 ^ mask.sum, ∀ hex, byString (toString id hex) = id
  text : ∀ texts ns, List.Forall₂ (NumberText toInt) texts ns →
    List.Forall₂ (fun n w => n < 2 ^ w) ns mask → ∀ hex,
      toString (byString (dotted texts)) hex = dotted (ns.map (fieldText hex)) ∧
        splitIdsByString toInt (some (toString (byString (dotted texts)) hex)) = ns

section RoundTrips

variable {toInt : Bytes → ℕ}

theorem mem_hexadecimal {n : ℕ} {c : Byte} (h : c ∈ hexadecimal n) :
    ∃ d < 16, c = Fin.ofNat 256 (Nat.digitChar d).toNat := by
  induction n using Nat.strong_induction_on generalizing c with
  | _ n ih =>
      by_cases hn : n < 16
      · rw [hexadecimal, Nat.toDigits_of_lt_base hn] at h
        exact ⟨n, hn, by simpa using h⟩
      · rw [hexadecimal, Nat.toDigits_of_base_le (by decide) (not_lt.1 hn), List.map_append,
          List.mem_append] at h
        obtain hfront | hlast := h
        · exact ih (n / 16) (Nat.div_lt_self (by omega) (by decide)) hfront
        · exact ⟨n % 16, Nat.mod_lt _ (by decide), by simpa using hlast⟩

/-- A field is written as a number. -/
theorem numberText_fieldText (h : ReadsNumbers toInt) {n : ℕ} (hn : n < 2 ^ 64) (hex : Bool) :
    NumberText toInt (fieldText hex n) n := by
  cases hex with
  | true =>
      refine ⟨⟨0x30, 0x78 :: hexadecimal n, rfl, rfl⟩, ?_, h.hexadecimal n hn⟩
      have hdigits : ∀ d < 16, dot ≠ Fin.ofNat 256 (Nat.digitChar d).toNat := by decide
      have hdot : dot ∉ hexadecimal n := by
        intro hmem
        obtain ⟨d, hd, hc⟩ := mem_hexadecimal hmem
        exact hdigits d hd hc
      simpa [fieldText, ascii, dot] using hdot
  | false =>
      have hdigit : ∀ c ∈ decimal n, 0x30 ≤ c ∧ c ≤ 0x39 := fun c hc => digit_of_mem_decimal hc
      refine ⟨?_, fun hmem => absurd (hdigit dot hmem).1 (by decide), h.decimal n hn⟩
      have hne : decimal n ≠ [] := by simp [LibAtapp.decimal]
      obtain ⟨c, tail, hc⟩ := List.exists_cons_of_ne_nil hne
      refine ⟨c, tail, hc, ?_⟩
      have hspace : ∀ c : Byte, 0x30 ≤ c → isSpace c = false := by decide +kernel
      exact hspace c (hdigit c (hc ▸ List.mem_cons_self)).1

theorem lt_of_fits {mask : List ℕ} (hmask : ∀ w ∈ mask, w ≤ 63) {ns : List ℕ}
    (hns : List.Forall₂ (fun n w => n < 2 ^ w) ns mask) : ∀ n ∈ ns, n < 2 ^ 64 := by
  induction hns with
  | nil => simp
  | @cons n w ns mask hn hns ih =>
      intro m hm
      obtain rfl | hrest := List.mem_cons.1 hm
      · have hw : w ≤ 64 := (hmask w List.mem_cons_self).trans (by decide)
        exact hn.trans_le (Nat.pow_le_pow_right (by decide) hw)
      · exact ih (fun v hv => hmask v (List.mem_cons_of_mem w hv)) m hrest

/-- The fields of an id are written as numbers. -/
theorem numberTexts_map (h : ReadsNumbers toInt) {ns : List ℕ} (hns : ∀ n ∈ ns, n < 2 ^ 64)
    (hex : Bool) : List.Forall₂ (NumberText toInt) (ns.map (fieldText hex)) ns := by
  induction ns with
  | nil => exact .nil
  | cons n ns ih =>
      exact .cons (numberText_fieldText h (hns n List.mem_cons_self) hex)
        (ih fun m hm => hns m (List.mem_cons_of_mem n hm))

theorem roundTrips_vector (h : ReadsNumbers toInt) {mask : List ℕ} (hne : mask ≠ [])
    (hmask : ∀ w ∈ mask, w ≤ 63) (hsum : mask.sum ≤ 64) :
    RoundTrips toInt mask (fun text => convertAppIdByString toInt (some text) mask)
      (fun id hex => convertAppIdToString id mask hex) := by
  have hroom : (0 + 1) * 2 ^ mask.sum ≤ 2 ^ 64 := by
    rw [Nat.zero_add, Nat.one_mul]
    exact Nat.pow_le_pow_right (by decide) hsum
  constructor
  · intro id hid hex
    have hfields := fields_unpackLoop hmask id
    have htexts := numberTexts_map h (lt_of_fits hmask hfields) hex
    show convertAppIdByString toInt (some (dotted _)) mask = id
    rw [convertAppIdByString_dotted htexts hfields hmask hne,
      packLoop_unpackLoop hmask id hroom, Nat.zero_mul, Nat.zero_add, Nat.mod_eq_of_lt hid]
  · intro texts ns htexts hns hex
    have htext : convertAppIdToString (convertAppIdByString toInt (some (dotted texts)) mask) mask
        hex = dotted (ns.map (fieldText hex)) := by
      rw [convertAppIdByString_dotted htexts hns hmask hne, convertAppIdToString,
        unpackLoop_packLoop hmask hns hroom]
    refine ⟨htext, ?_⟩
    rw [htext]
    exact splitLoop_dotted (numberTexts_map h (lt_of_fits hmask hns) hex)

/-- Ids and their texts determine each other, with the mask as a vector and as a text. -/
theorem appId_roundTrips (h : ReadsNumbers toInt) {mask : List ℕ} (hne : mask ≠ [])
    (hwidth : ∀ w ∈ mask, 1 ≤ w ∧ w ≤ 63) (hsum : mask.sum ≤ 64) :
    RoundTrips toInt mask (fun text => convertAppIdByString toInt (some text) mask)
      (fun id hex => convertAppIdToString id mask hex) ∧
    ∀ maskTexts, List.Forall₂ (NumberText toInt) maskTexts mask →
      RoundTrips toInt mask
        (fun text => convertAppIdByStringText toInt (some text) (some (dotted maskTexts)))
        (fun id hex => convertAppIdToStringText toInt id (some (dotted maskTexts)) hex) := by
  have hvector := roundTrips_vector h hne (fun w hw => (hwidth w hw).2) hsum
  refine ⟨hvector, fun maskTexts hmaskTexts => ?_⟩
  have hmask : splitIdsByString toInt (some (dotted maskTexts)) = mask :=
    splitLoop_dotted hmaskTexts
  have hby : (fun text => convertAppIdByStringText toInt (some text) (some (dotted maskTexts))) =
      fun text => convertAppIdByString toInt (some text) mask := by
    funext text
    rw [← hmask]
    cases text <;> rfl
  have hto : (fun id hex => convertAppIdToStringText toInt id (some (dotted maskTexts)) hex) =
      fun id hex => convertAppIdToString id mask hex := by
    funext id hex
    rw [convertAppIdToStringText, hmask]
  rw [hby, hto]
  exact hvector

end RoundTrips

/-! ## A reader of numbers -/

/-- The value of a digit -/
def digitValue (c : Byte) : Option ℕ :=
  if 0x30 ≤ c ∧ c ≤ 0x39 then some (c.val - 0x30)
  else if 0x61 ≤ c ∧ c ≤ 0x66 then some (c.val - 0x61 + 10)
  else if 0x41 ≤ c ∧ c ≤ 0x46 then some (c.val - 0x41 + 10)
  else none

/-- The digits at the front of a text, after a number that has been read already. -/
def readDigits (base : ℕ) : ℕ → Bytes → ℕ
  | n, [] => n
  | n, c :: rest =>
    match digitValue c with
    | some d => if d < base then readDigits base (n * base + d) rest else n
    | none => n

/-- A number at the front of a text, in hexadecimal after `0x`. -/
def readNumber : Bytes → ℕ
  | 0x30 :: 0x78 :: rest => readDigits 16 0 rest
  | text => readDigits 10 0 text

/-- The digits of a number in a base -/
def digits (base n : ℕ) : Bytes := (Nat.toDigits base n).map fun c => Fin.ofNat 256 c.toNat

theorem readDigits_digit {base d : ℕ} (hbase : base ≤ 16) (hd : d < base) (n : ℕ) (rest : Bytes) :
    readDigits base n (Fin.ofNat 256 (Nat.digitChar d).toNat :: rest) =
      readDigits base (n * base + d) rest := by
  have hvalue : ∀ d < 16, digitValue (Fin.ofNat 256 (Nat.digitChar d).toNat) = some d := by decide
  rw [readDigits, hvalue d (by omega)]
  exact if_pos hd

theorem readDigits_digits {base : ℕ} (hlow : 1 < base) (hbase : base ≤ 16) (n : ℕ) (rest : Bytes) :
    readDigits base 0 (digits base n ++ rest) = readDigits base n rest := by
  induction n using Nat.strong_induction_on generalizing rest with
  | _ n ih =>
      by_cases hn : n < base
      · rw [digits, Nat.toDigits_of_lt_base hn]
        simpa using readDigits_digit hbase hn 0 rest
      · have hsmall : n / base < n := Nat.div_lt_self (by omega) hlow
        have hlast : n % base < base := Nat.mod_lt _ (by omega)
        have hsplit : digits base n = digits base (n / base) ++
            [Fin.ofNat 256 (Nat.digitChar (n % base)).toNat] := by
          simp [digits, Nat.toDigits_of_base_le hlow (not_lt.1 hn)]
        rw [hsplit, List.append_assoc, ih _ hsmall, List.singleton_append,
          readDigits_digit hbase hlast, Nat.div_add_mod']

theorem readDigits_ends (base n : ℕ) {rest : Bytes} (h : Ends rest) : readDigits base n rest = n := by
  obtain rfl | ⟨tail, rfl⟩ := h
  · rfl
  · rfl

theorem readNumber_decimal {text : Bytes} (h : ∀ c ∈ text, 0x30 ≤ c ∧ c ≤ 0x39) {rest : Bytes}
    (hrest : Ends rest) : readNumber (text ++ rest) = readDigits 10 0 (text ++ rest) := by
  unfold readNumber
  split
  · next tail heq =>
      -- the second byte of a decimal number is a digit or the dot after it
      exfalso
      match text, h with
      | [], _ =>
          obtain rfl | ⟨t, rfl⟩ := hrest <;> simp [dot] at heq
      | [c], _ =>
          obtain rfl | ⟨t, rfl⟩ := hrest <;> simp [dot] at heq
      | c :: d :: text, h =>
          have hd := h d (by simp)
          simp only [List.cons_append, List.cons.injEq] at heq
          rw [heq.2.1] at hd
          exact absurd hd.2 (by decide)
  · rfl

theorem readsNumbers_readNumber : ReadsNumbers readNumber := by
  constructor
  · intro n _ rest hrest
    rw [readNumber_decimal (fun c hc => digit_of_mem_decimal hc) hrest]
    exact (readDigits_digits (by decide) (by decide) n rest).trans (readDigits_ends 10 n hrest)
  · intro n _ rest hrest
    show readDigits 16 0 (digits 16 n ++ rest) = n
    exact (readDigits_digits (by decide) (by decide) n rest).trans (readDigits_ends 16 n hrest)

/-- The id of the loader's test, whose mask is `8.8.8.8` -/
theorem convertAppId_bytes :
    convertAppIdByString readNumber
      (some (convertAppIdToString 0x01020304 [8, 8, 8, 8] true)) [8, 8, 8, 8] = 0x01020304 :=
  (appId_roundTrips readsNumbers_readNumber (by decide) (by decide) (by decide)).1.id
    0x01020304 (by decide) true

end LibAtapp.AppIds
