import LibAtapp.Library.Transducer
import LibAtapp.Protocol

set_option autoImplicit false

/-! # Cutting the watch stream into texts

`libcurl_callback_on_watch_write` gets the body of a watch request in chunks and cuts it into JSON
texts by counting brackets: `rpc_data_brackets_` is the number of open ones, `rpc_data_stream_` the
text read so far. This file has the cutting as the code does it, a skip loop and a counting loop
on the bytes of one chunk, and as a reader that takes one byte at a time (`byteStep`), and proves
that they are the same (`extractText_eq_readItem`). -/

namespace LibAtapp

/-- The decoder's part of `etcd_watcher`. -/
structure WatchStream where
  rpcDataStream : Bytes := []
  rpcDataBrackets : Int := 0
  deriving DecidableEq, Repr

namespace WatchStream

/-! ## The loops of the source -/

/-- An opening curly or square bracket. -/
def isOpening (c : Byte) : Bool := c == 0x7b || c == 0x5b

/-- A closing curly or square bracket. -/
def isClosing (c : Byte) : Bool := c == 0x7d || c == 0x5d

/-- The skip loop: drop bytes up to the first NUL or opening bracket. -/
def skipJunk : Bytes → Bytes
  | [] => []
  | c :: inbuf => if c ≠ 0 && !isOpening c then skipJunk inbuf else c :: inbuf

/-- The bracket count after a byte. -/
def countBracket (rpcDataBrackets : Int) (c : Byte) : Int :=
  let opened := if isOpening c then rpcDataBrackets + 1 else rpcDataBrackets
  if isClosing c then opened - 1 else opened

/-- How the counting loop over one chunk ends. -/
inductive Scan where
  /-- `need_process`: the bytes up to the last bracket, and those after it. -/
  | complete (text inbuf : Bytes)
  /-- The chunk ends inside a text. -/
  | incomplete (rpcDataBrackets : Int)

/-- The counting loop. -/
def scanBrackets : Int → Bytes → Scan
  | rpcDataBrackets, [] => .incomplete rpcDataBrackets
  | rpcDataBrackets, c :: inbuf =>
    let brackets := countBracket rpcDataBrackets c
    if brackets ≤ 0 then .complete [c] inbuf
    else
      match scanBrackets brackets inbuf with
      | .complete text rest => .complete (c :: text) rest
      | .incomplete brackets => .incomplete brackets

/-- One pass of the `while` loop, up to `value_json`: the decoder after it and, when a text is
    complete, the text with the bytes left in the chunk. -/
def extractText (self : WatchStream) (inbuf : Bytes) : WatchStream × Option (Bytes × Bytes) :=
  let inbuf := if self.rpcDataBrackets ≤ 0 then skipJunk inbuf else inbuf
  match scanBrackets self.rpcDataBrackets inbuf with
  | .complete text rest => ({}, some (self.rpcDataStream ++ text, rest))
  | .incomplete brackets => (⟨self.rpcDataStream ++ inbuf, brackets⟩, none)

/-! ## The reader of single bytes -/

/-- Outside of a text, bytes other than NUL and the opening brackets are skipped; any other byte
    is added to the text, which it completes when no bracket is left open. -/
def byteStep (self : WatchStream) (c : Byte) : WatchStream × Option Bytes :=
  if self.rpcDataBrackets ≤ 0 ∧ c ≠ 0 ∧ isOpening c = false then (self, none)
  else
    let brackets := countBracket self.rpcDataBrackets c
    if brackets ≤ 0 then ({}, some (self.rpcDataStream ++ [c]))
    else (⟨self.rpcDataStream ++ [c], brackets⟩, none)

theorem byteStep_skip {self : WatchStream} {c : Byte} (h : self.rpcDataBrackets ≤ 0)
    (hc : (c ≠ 0 && !isOpening c) = true) : byteStep self c = (self, none) := by
  simp only [Bool.and_eq_true, decide_eq_true_eq, Bool.not_eq_true'] at hc
  simp only [byteStep, h, hc, and_self, ne_eq, not_false_eq_true, if_true]

/-- Where nothing is skipped, the reader goes on as the counting loop does. -/
theorem byteStep_count {self : WatchStream} {c : Byte}
    (h : ¬ (self.rpcDataBrackets ≤ 0 ∧ c ≠ 0 ∧ isOpening c = false)) :
    byteStep self c =
      if countBracket self.rpcDataBrackets c ≤ 0 then ({}, some (self.rpcDataStream ++ [c]))
      else (⟨self.rpcDataStream ++ [c], countBracket self.rpcDataBrackets c⟩, none) := by
  simp only [byteStep, h, if_false]

theorem readItem_skipJunk {self : WatchStream} (h : self.rpcDataBrackets ≤ 0) (inbuf : Bytes) :
    Transducer.readItem byteStep self inbuf =
      Transducer.readItem byteStep self (skipJunk inbuf) := by
  induction inbuf with
  | nil => rfl
  | cons c inbuf ih =>
      rw [skipJunk]
      split
      · next hc => rw [Transducer.readItem_cons_none byteStep (byteStep_skip h hc), ih]
      · rfl

/-- The counting loop reads as the reader does, from a byte on that is not skipped. -/
theorem readItem_scanBrackets (self : WatchStream) (inbuf : Bytes)
    (h : self.rpcDataBrackets ≤ 0 → ∀ c ∈ inbuf.head?, c = 0 ∨ isOpening c = true) :
    Transducer.readItem byteStep self inbuf =
      match scanBrackets self.rpcDataBrackets inbuf with
      | .complete text rest => ({}, some (self.rpcDataStream ++ text, rest))
      | .incomplete brackets => (⟨self.rpcDataStream ++ inbuf, brackets⟩, none) := by
  induction inbuf generalizing self with
  | nil => simp [Transducer.readItem, scanBrackets]
  | cons c inbuf ih =>
      have hcount : ¬ (self.rpcDataBrackets ≤ 0 ∧ c ≠ 0 ∧ isOpening c = false) := by
        rintro ⟨hb, hc, ho⟩
        rcases h hb c (by simp) with h0 | h1
        · exact hc h0
        · rw [h1] at ho
          cases ho
      rw [scanBrackets]
      by_cases hclosed : countBracket self.rpcDataBrackets c ≤ 0
      · have hstep : byteStep self c = ({}, some (self.rpcDataStream ++ [c])) := by
          rw [byteStep_count hcount, if_pos hclosed]
        rw [Transducer.readItem_cons_some byteStep hstep]
        simp only [hclosed, if_true]
      · have hstep : byteStep self c =
            (⟨self.rpcDataStream ++ [c], countBracket self.rpcDataBrackets c⟩, none) := by
          rw [byteStep_count hcount, if_neg hclosed]
        rw [Transducer.readItem_cons_none byteStep hstep,
          ih ⟨self.rpcDataStream ++ [c], countBracket self.rpcDataBrackets c⟩
            (fun hle => absurd hle hclosed)]
        simp only [hclosed, if_false]
        cases scanBrackets (countBracket self.rpcDataBrackets c) inbuf with
        | complete text rest => simp [List.append_assoc]
        | incomplete brackets => simp [List.append_assoc]

/-- The skip loop stops at the end of the chunk, at a NUL or at an opening bracket. -/
theorem head_skipJunk (inbuf : Bytes) :
    ∀ c ∈ (skipJunk inbuf).head?, c = 0 ∨ isOpening c = true := by
  induction inbuf with
  | nil => simp [skipJunk]
  | cons c inbuf ih =>
      rw [skipJunk]
      split
      · exact ih
      · next hc =>
        intro d hd
        simp only [List.head?_cons, Option.mem_def, Option.some.injEq] at hd
        subst hd
        simpa [or_iff_not_imp_left] using hc

/-- **One pass of the source's loop is the reader's next text.** -/
theorem extractText_eq_readItem (self : WatchStream) (inbuf : Bytes) :
    extractText self inbuf = Transducer.readItem byteStep self inbuf := by
  rw [extractText]
  by_cases h : self.rpcDataBrackets ≤ 0
  · simp only [h, if_true]
    rw [readItem_skipJunk h, readItem_scanBrackets self _ (fun _ => head_skipJunk inbuf)]
  · simp only [h, if_false]
    rw [readItem_scanBrackets self inbuf (fun hle => absurd hle h)]

/-- A pass that finds a text uses up at least one byte of the chunk. -/
theorem length_of_extractText {self self' : WatchStream} {inbuf text rest : Bytes}
    (h : extractText self inbuf = (self', some (text, rest))) : rest.length < inbuf.length := by
  rw [extractText_eq_readItem] at h
  exact Transducer.length_of_readItem byteStep h

end WatchStream

end LibAtapp
