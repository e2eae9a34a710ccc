import LibAtapp.Protocol

set_option autoImplicit false

/-! # The response to a custom command

`bus_evt_callback_on_custom_command_request` cuts the list of response strings where it would not
fit the message limit, and then appends a notice. The budget it keeps does not account for the
notice, and a response of exactly the limit counts as too long. -/

namespace LibAtapp.CommandResponse

/-- `command_reserve_header` -/
def commandReserveHeader : ℕ := 8

/-- Subtraction of `size_t`, which is to have a result that is not negative. The sums of the loop
    are sums over strings in memory and stay in range. -/
def sub (a b : ℕ) : Option ℕ := if b ≤ a then some (a - b) else none

/-- `std::string::resize` -/
def resize (text : Bytes) (size : ℕ) : Bytes :=
  text.take size ++ List.replicate (size - text.length) 0

/-- The local variables of the loop -/
structure Budget where
  useSize : ℕ
  sumSize : ℕ
  isTruncated : Bool

/-- One round of the loop: what is left of the item, and `none` for the whole where a subtraction
    has no result. -/
def item (maxSize : ℕ) (b : Budget) (cur : Bytes) : Option (Budget × Option Bytes) :=
  let sumSize := b.sumSize + cur.length
  if b.isTruncated then some ({ b with sumSize := sumSize }, none)
  else if maxSize ≤ b.useSize + cur.length + commandReserveHeader then
    if maxSize ≤ b.useSize + commandReserveHeader then some (⟨maxSize, sumSize, true⟩, none)
    else
      (sub maxSize b.useSize).bind fun left =>
        (sub left commandReserveHeader).map fun room =>
          (⟨maxSize, sumSize, true⟩, some (resize cur room))
  else some (⟨b.useSize + cur.length + commandReserveHeader, sumSize, false⟩, some cur)

/-- The loop, which erases from the list it walks: the items that stay. -/
def walk (maxSize : ℕ) : Budget → List Bytes → Option (Budget × List Bytes)
  | b, [] => some (b, [])
  | b, cur :: rest =>
    (item maxSize b cur).bind fun (b', kept) =>
      (walk maxSize b' rest).map fun (b'', items) => (b'', kept.toList ++ items)

/-- The notice with the numbers `{}` -/
def notice (sumSize maxSize : ℕ) : Bytes :=
  ascii "Response message size " ++ decimal sumSize ++ ascii " is greater than size limit " ++
    decimal maxSize ++ ascii ", some data will be truncated."

/-- The truncation step of `app::bus_evt_callback_on_custom_command_request` -/
def truncateResponse (maxSize : ℕ) (rsp : List Bytes) : Option (List Bytes) :=
  (walk maxSize ⟨0, 0, false⟩ rsp).map fun (b, items) =>
    if b.isTruncated then items ++ [notice b.sumSize maxSize] else items

/-! ## What the response is to be -/

/-- What a list of strings takes of a message -/
def cost (items : List Bytes) : ℕ := (items.map (·.length + commandReserveHeader)).sum

/-- The bytes of a list of strings -/
def totalSize (items : List Bytes) : ℕ := (items.map List.length).sum

@[simp] theorem cost_nil : cost [] = 0 := rfl

@[simp] theorem cost_cons (s : Bytes) (items : List Bytes) :
    cost (s :: items) = s.length + commandReserveHeader + cost items := rfl

@[simp] theorem cost_append (front back : List Bytes) :
    cost (front ++ back) = cost front + cost back := by
  simp [cost]

@[simp] theorem totalSize_nil : totalSize [] = 0 := rfl

@[simp] theorem totalSize_cons (s : Bytes) (items : List Bytes) :
    totalSize (s :: items) = s.length + totalSize items := rfl

/-- A prefix of the list in which at most the last string is cut. -/
def CutPrefix (data items : List Bytes) : Prop :=
  data = [] ∨ ∃ front cut s, data = front ++ [cut] ∧ front ++ [s] <+: items ∧ cut <+: s

/-- The response meets the message limit: it fits with its notice where the notice alone does, its
    data are a prefix of the strings with at most the last one cut, and strings that fit are left
    as they are. -/
structure MeetsLimit (maxSize : ℕ) (rsp final : List Bytes) : Prop where
  fits : cost [notice (totalSize rsp) maxSize] ≤ maxSize → cost final ≤ maxSize
  data : ∃ items, CutPrefix items rsp ∧
    (final = items ∨ final = items ++ [notice (totalSize rsp) maxSize])
  unchanged : cost rsp ≤ maxSize → final = rsp

theorem CutPrefix.refl (items : List Bytes) : CutPrefix items items := by
  obtain rfl | ⟨front, last, rfl⟩ := List.eq_nil_or_concat' items
  · exact Or.inl rfl
  · exact Or.inr ⟨front, last, last, rfl, List.prefix_rfl, List.prefix_rfl⟩

theorem CutPrefix.cons {data items : List Bytes} (h : CutPrefix data items) (s : Bytes) :
    CutPrefix (s :: data) (s :: items) := by
  obtain rfl | ⟨front, cut, t, rfl, hfront, hcut⟩ := h
  · exact Or.inr ⟨[], s, s, rfl, by simp, List.prefix_rfl⟩
  · exact Or.inr ⟨s :: front, cut, t, rfl, by simpa using hfront, hcut⟩

theorem cutPrefix_singleton {cut s : Bytes} (h : cut <+: s) (rest : List Bytes) :
    CutPrefix [cut] (s :: rest) :=
  Or.inr ⟨[], cut, s, rfl, by simp, h⟩

/-! ## The loop -/

theorem resize_of_le {text : Bytes} {size : ℕ} (h : size ≤ text.length) :
    resize text size = text.take size := by
  simp [resize, Nat.sub_eq_zero_of_le h]

theorem walk_cons_some {maxSize : ℕ} {b b' b'' : Budget} {cur : Bytes} {kept : Option Bytes}
    {rest items : List Bytes} (hitem : item maxSize b cur = some (b', kept))
    (hrest : walk maxSize b' rest = some (b'', items)) :
    walk maxSize b (cur :: rest) = some (b'', kept.toList ++ items) := by
  simp [walk, hitem, hrest]

/-- Once it has truncated, the loop erases what is left and goes on adding sizes. -/
theorem walk_truncated (maxSize use sum : ℕ) (items : List Bytes) :
    walk maxSize ⟨use, sum, true⟩ items = some (⟨use, sum + totalSize items, true⟩, []) := by
  induction items generalizing sum with
  | nil => rfl
  | cons cur rest ih =>
      have hitem : item maxSize ⟨use, sum, true⟩ cur = some (⟨use, sum + cur.length, true⟩, none) :=
        rfl
      rw [walk_cons_some hitem (ih (sum + cur.length))]
      simp [Nat.add_assoc]

/-- Items whose sum stays below the limit are all kept. -/
theorem walk_of_lt {maxSize : ℕ} (use sum : ℕ) {items : List Bytes} (h : use + cost items < maxSize) :
    walk maxSize ⟨use, sum, false⟩ items =
      some (⟨use + cost items, sum + totalSize items, false⟩, items) := by
  induction items generalizing use sum with
  | nil => rfl
  | cons cur rest ih =>
      rw [cost_cons] at h
      have hitem : item maxSize ⟨use, sum, false⟩ cur =
          some (⟨use + cur.length + commandReserveHeader, sum + cur.length, false⟩, some cur) := by
        simp only [item, Bool.false_eq_true, if_false]
        rw [if_neg (by omega)]
      rw [walk_cons_some hitem (ih _ _ (by omega))]
      simp [Nat.add_assoc]

/-- The round that truncates: no subtraction fails, and what is left of the item fills the limit
    but for a header at most. -/
theorem item_of_le {maxSize use : ℕ} (sum : ℕ) {cur : Bytes}
    (h : maxSize ≤ use + cur.length + commandReserveHeader) :
    ∃ kept : Option Bytes, item maxSize ⟨use, sum, false⟩ cur =
        some (⟨maxSize, sum + cur.length, true⟩, kept) ∧
      (∀ cut ∈ kept, cut <+: cur) ∧ maxSize ≤ use + cost kept.toList + commandReserveHeader := by
  by_cases hroom : maxSize ≤ use + commandReserveHeader
  · exact ⟨none, by simp [item, h, hroom], by simp, by simpa using hroom⟩
  · have hleft : sub maxSize use = some (maxSize - use) := if_pos (by omega)
    have hsub : sub (maxSize - use) commandReserveHeader =
        some (maxSize - use - commandReserveHeader) := if_pos (by omega)
    have hsize : maxSize - use - commandReserveHeader ≤ cur.length := by omega
    refine ⟨some (cur.take (maxSize - use - commandReserveHeader)), ?_, ?_, ?_⟩
    · simp [item, h, hroom, hleft, hsub, resize_of_le hsize]
    · rintro cut ⟨⟩
      exact List.take_prefix _ _
    · simp only [Option.toList_some, cost_cons, cost_nil, List.length_take, Nat.min_eq_left hsize]
      omega

/-- Items whose sum reaches the limit are cut. -/
theorem walk_of_le {maxSize : ℕ} (use sum : ℕ) {items : List Bytes} (hne : items ≠ [])
    (h : maxSize ≤ use + cost items) :
    ∃ kept, walk maxSize ⟨use, sum, false⟩ items =
        some (⟨maxSize, sum + totalSize items, true⟩, kept) ∧
      CutPrefix kept items ∧ maxSize ≤ use + cost kept + commandReserveHeader := by
  induction items generalizing use sum with
  | nil => exact absurd rfl hne
  | cons cur rest ih =>
      rw [cost_cons] at h
      by_cases hcur : maxSize ≤ use + cur.length + commandReserveHeader
      · obtain ⟨kept, hitem, hcut, hfull⟩ := item_of_le sum hcur
        refine ⟨kept.toList, ?_, ?_, hfull⟩
        · rw [walk_cons_some hitem (walk_truncated _ _ _ rest)]
          simp [Nat.add_assoc]
        · cases kept with
          | none => exact Or.inl rfl
          | some cut => exact cutPrefix_singleton (hcut cut rfl) rest
      · have hrest : rest ≠ [] := by
          rintro rfl
          rw [cost_nil] at h
          omega
        have hitem : item maxSize ⟨use, sum, false⟩ cur =
            some (⟨use + cur.length + commandReserveHeader, sum + cur.length, false⟩,
              some cur) := by
          simp [item, hcur]
        obtain ⟨kept, hwalk, hcut, hfull⟩ :=
          ih (use + cur.length + commandReserveHeader) (sum + cur.length) hrest (by omega)
        refine ⟨cur :: kept, ?_, hcut.cons cur, ?_⟩
        · rw [walk_cons_some hitem hwalk]
          simp [Nat.add_assoc]
        · rw [cost_cons]
          omega

/-! ## The response -/

theorem length_notice (sumSize maxSize : ℕ) :
    (notice sumSize maxSize).length =
      80 + (Nat.toDigits 10 sumSize).length + (Nat.toDigits 10 maxSize).length := by
  have hfirst : (ascii "Response message size ").length = 22 := by decide
  have hsecond : (ascii " is greater than size limit ").length = 28 := by decide
  have hthird : (ascii ", some data will be truncated.").length = 30 := by decide
  simp only [notice, List.length_append, hfirst, hsecond, hthird, decimal, List.length_map]
  omega

theorem truncateResponse_of_lt {maxSize : ℕ} {rsp : List Bytes}
    (h : rsp = [] ∨ cost rsp < maxSize) : truncateResponse maxSize rsp = some rsp := by
  obtain rfl | hlt := h
  · rfl
  · simp [truncateResponse, walk_of_lt 0 0 (by simpa using hlt)]

/-- A response that is cut: the data fill the limit but for a header at most, and the notice comes
    on top. -/
theorem truncateResponse_of_le {maxSize : ℕ} {rsp : List Bytes} (hne : rsp ≠ [])
    (h : maxSize ≤ cost rsp) :
    ∃ kept, truncateResponse maxSize rsp = some (kept ++ [notice (totalSize rsp) maxSize]) ∧
      CutPrefix kept rsp ∧ maxSize ≤ cost kept + commandReserveHeader := by
  obtain ⟨kept, hwalk, hcut, hfull⟩ := walk_of_le 0 0 hne (by simpa using h)
  refine ⟨kept, ?_, hcut, by simpa using hfull⟩
  simp [truncateResponse, hwalk]

/-- A response always comes about, with no subtraction below zero, and its data are a prefix of the
    strings with at most the last one cut. -/
theorem truncateResponse_data (maxSize : ℕ) (rsp : List Bytes) :
    ∃ items, CutPrefix items rsp ∧ (truncateResponse maxSize rsp = some items ∨
      truncateResponse maxSize rsp = some (items ++ [notice (totalSize rsp) maxSize])) := by
  by_cases h : rsp = [] ∨ cost rsp < maxSize
  · exact ⟨rsp, CutPrefix.refl rsp, Or.inl (truncateResponse_of_lt h)⟩
  · obtain ⟨hne, hle⟩ := not_or.1 h
    obtain ⟨kept, hkept, hcut, -⟩ := truncateResponse_of_le hne (not_lt.1 hle)
    exact ⟨kept, hcut, Or.inr hkept⟩

/-- The response meets the message limit exactly when there is nothing to cut, or when strings
    above the limit meet a limit that is too small for the notice alone. -/
theorem truncateResponse_meetsLimit_iff (maxSize : ℕ) (rsp : List Bytes) :
    (∃ final, truncateResponse maxSize rsp = some final ∧ MeetsLimit maxSize rsp final) ↔
      rsp = [] ∨ cost rsp < maxSize ∨
        maxSize < cost rsp ∧ maxSize < 88 + (Nat.toDigits 10 (totalSize rsp)).length +
          (Nat.toDigits 10 maxSize).length := by
  have hnotice := length_notice (totalSize rsp) maxSize
  by_cases hkeep : rsp = [] ∨ cost rsp < maxSize
  · refine iff_of_true ⟨rsp, truncateResponse_of_lt hkeep, ?_⟩ (by tauto)
    refine ⟨fun _ => ?_, ⟨rsp, CutPrefix.refl rsp, Or.inl rfl⟩, fun _ => rfl⟩
    obtain rfl | hlt := hkeep
    · exact Nat.zero_le _
    · exact hlt.le
  · obtain ⟨hne, hlt⟩ := not_or.1 hkeep
    obtain ⟨kept, hkept, hcut, hfull⟩ := truncateResponse_of_le hne (not_lt.1 hlt)
    constructor
    · rintro ⟨final, hfinal, hmeets⟩
      obtain rfl : final = kept ++ [notice (totalSize rsp) maxSize] := by simp_all
      refine Or.inr (Or.inr ⟨lt_of_le_of_ne (not_lt.1 hlt) fun heq => ?_, ?_⟩)
      · -- strings of exactly the limit are to stay as they are, and get a notice
        have hsame := hmeets.unchanged heq.ge
        have hcost := congrArg cost hsame
        simp only [cost_append, cost_cons, cost_nil] at hcost
        omega
      · by_contra hroom
        have hfits := hmeets.fits (by simp only [cost_cons, cost_nil, commandReserveHeader]; omega)
        simp only [cost_append, cost_cons, cost_nil] at hfits
        omega
    · rintro (hnil | hbelow | ⟨habove, hsmall⟩)
      · exact absurd hnil hne
      · exact absurd hbelow hlt
      · refine ⟨_, hkept, fun hroom => ?_, ⟨kept, hcut, Or.inr rfl⟩, fun hle => ?_⟩
        · simp only [cost_cons, cost_nil, commandReserveHeader] at hroom
          omega
        · omega

/-- One string of 200 bytes and a limit of 100 bytes, of which the notice alone takes 94. -/
theorem not_meetsLimit_overLimit :
    ¬ ∃ final, truncateResponse 100 [List.replicate 200 0x61] = some final ∧
      MeetsLimit 100 [List.replicate 200 0x61] final := by
  rintro ⟨final, hfinal, hmeets⟩
  have hcost : (truncateResponse 100 [List.replicate 200 0x61]).map cost = some 194 := by
    decide +kernel
  rw [hfinal, Option.map_some, Option.some.injEq] at hcost
  have hfits := hmeets.fits (by decide +kernel)
  omega

end LibAtapp.CommandResponse
