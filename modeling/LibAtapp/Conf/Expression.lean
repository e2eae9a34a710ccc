import LibAtapp.Protocol
import Mathlib.Data.List.TakeWhile

set_option autoImplicit false

/-! # Environment expressions

`expand_environment_expression` of `atapp_conf.cpp` and its three scanners: the finder of the
brace that closes a `${`, the finder of the operator `:-` or `:+` outside nested braces, and the
main loop, which copies plain text and replaces what it recognises.

A position of the source is a suffix of the input here, and an index that a finder returns is
relative to where it starts. The recursion depth of the source counts up to
`kMaxExpressionRecursionDepth`; the number of levels left counts down instead, so that every
definition is structurally recursive. -/

namespace LibAtapp.Conf

/-! ## The characters the scanners look at -/

def backslash : Byte := 0x5C
def dollar : Byte := 0x24
def openBrace : Byte := 0x7B
def closeBrace : Byte := 0x7D
def colon : Byte := 0x3A
def minus : Byte := 0x2D
def plus : Byte := 0x2B

/-- `is_variable_name_char`: `[A-Za-z0-9_]`. -/
def isVariableNameChar (c : Byte) : Bool :=
  (0x41 ≤ c && c ≤ 0x5A) || (0x61 ≤ c && c ≤ 0x7A) || (0x30 ≤ c && c ≤ 0x39) || c == 0x5F

/-! ## The environment -/

/-- The variables of the process, by their names; an unset variable is an empty one. -/
abbrev Environment := Bytes → Bytes

/-- `file_system::getenv(name.c_str())`, which sees a name up to its first NUL. -/
def Environment.getenv (environment : Environment) (name : Bytes) : Bytes :=
  environment (cString name)

/-- A name without a NUL is looked up as it is. -/
theorem Environment.getenv_eq (environment : Environment) {name : Bytes} (h : (0 : Byte) ∉ name) :
    environment.getenv name = environment name := by
  have hall : ∀ c ∈ name, decide (c ≠ 0) = true := by
    intro c hc
    have hne : c ≠ 0 := fun h0 => h (h0 ▸ hc)
    simpa using hne
  rw [Environment.getenv, cString, List.takeWhile_eq_self_iff.2 hall]

/-! ## The scanners -/

/-- The loop of `find_matching_close_brace` with `depth` braces open. -/
def closeBraceFrom : Nat → Bytes → Option Nat
  | _, [] => none
  | depth, [c] => if c = closeBrace ∧ depth ≤ 1 then some 0 else none
  | depth, c :: d :: rest =>
    if c = backslash then (closeBraceFrom depth rest).map (· + 2)
    else if c = dollar ∧ d = openBrace then (closeBraceFrom (depth + 1) rest).map (· + 2)
    else if c = closeBrace then
      if depth ≤ 1 then some 0 else (closeBraceFrom (depth - 1) (d :: rest)).map (· + 1)
    else (closeBraceFrom depth (d :: rest)).map (· + 1)

/-- `find_matching_close_brace`, on the text after a `${`. -/
def findMatchingCloseBrace (input : Bytes) : Option Nat := closeBraceFrom 1 input

/-- The loop of `find_top_level_operator` with `depth` braces open. -/
def topLevelOperatorFrom : Nat → Bytes → Option Nat
  | _, [] => none
  | _, [_] => none
  | depth, c :: d :: rest =>
    if c = backslash then (topLevelOperatorFrom depth rest).map (· + 2)
    else if c = dollar ∧ d = openBrace then (topLevelOperatorFrom (depth + 1) rest).map (· + 2)
    else if c = closeBrace then (topLevelOperatorFrom (depth - 1) (d :: rest)).map (· + 1)
    else if depth = 0 ∧ c = colon ∧ (d = minus ∨ d = plus) then some 0
    else (topLevelOperatorFrom depth (d :: rest)).map (· + 1)

/-- `find_top_level_operator`: the index of the `:`. -/
def findTopLevelOperator (content : Bytes) : Option Nat := topLevelOperatorFrom 0 content

/-- What `expand_expression_impl` appends for `${content}`; `next` is the expansion one level
    deeper. -/
def expandBraced (environment : Environment) (next : Bytes → Bytes) (content : Bytes) : Bytes :=
  match findTopLevelOperator content with
  | some opPos =>
    let value := environment.getenv (next (content.take opPos))
    let argPart := content.drop (opPos + 2)
    if content[opPos + 1]? = some minus then
      if value = [] then next argPart else value
    else if value = [] then [] else next argPart
  | none => environment.getenv (next content)

/-- The main loop of `expand_expression_impl`. The number says how many of the next characters
    the last round has consumed already, where the source moves its index past them. -/
def expandLoop (environment : Environment) (next : Bytes → Bytes) : Nat → Bytes → Bytes
  | _, [] => []
  | consumed + 1, _ :: rest => expandLoop environment next consumed rest
  | 0, c :: rest =>
    if c = backslash ∧ rest.head? = some dollar then
      dollar :: expandLoop environment next 1 rest
    else if c = dollar then
      match rest.head? with
      | none => [dollar]
      | some d =>
        if d = openBrace then
          match findMatchingCloseBrace (rest.drop 1) with
          | none => dollar :: openBrace :: expandLoop environment next 1 rest
          | some closePos =>
            expandBraced environment next ((rest.drop 1).take closePos)
              ++ expandLoop environment next (1 + closePos + 1) rest
        else if isVariableNameChar d then
          environment.getenv (rest.takeWhile isVariableNameChar)
            ++ expandLoop environment next (rest.takeWhile isVariableNameChar).length rest
        else dollar :: expandLoop environment next 0 rest
    else c :: expandLoop environment next 0 rest

/-- `kMaxExpressionRecursionDepth` -/
def kMaxExpressionRecursionDepth : Nat := 32

/-- The expansion with `levels` levels of recursion left. -/
def expandLevels (environment : Environment) : Nat → Bytes → Bytes
  | 0, input => input
  | levels + 1, input => expandLoop environment (expandLevels environment levels) 0 input

/-- `expand_expression_impl` -/
def expandExpressionImpl (environment : Environment) (input : Bytes) (depth : Nat) : Bytes :=
  expandLevels environment (kMaxExpressionRecursionDepth + 1 - depth) input

/-- `expand_environment_expression` -/
def expandEnvironmentExpression (environment : Environment) (input : Bytes) : Bytes :=
  expandExpressionImpl environment input 0

/-- The recursion as the source writes it, with the guard on the depth first. -/
theorem expandExpressionImpl_eq (environment : Environment) (input : Bytes) (depth : Nat) :
    expandExpressionImpl environment input depth
      = if depth > kMaxExpressionRecursionDepth then input
        else expandLoop environment
          (fun part => expandExpressionImpl environment part (depth + 1)) 0 input := by
  by_cases hdeep : depth > kMaxExpressionRecursionDepth
  · have hnone : kMaxExpressionRecursionDepth + 1 - depth = 0 := by omega
    rw [if_pos hdeep, expandExpressionImpl, hnone, expandLevels]
  · have hsome : kMaxExpressionRecursionDepth + 1 - depth
        = kMaxExpressionRecursionDepth + 1 - (depth + 1) + 1 := by omega
    rw [if_neg hdeep, expandExpressionImpl, hsome, expandLevels]
    rfl

/-! ## One round of each scanner -/

theorem closeBraceFrom_escape (depth : Nat) (c : Byte) (rest : Bytes) :
    closeBraceFrom depth (backslash :: c :: rest) = (closeBraceFrom depth rest).map (· + 2) := by
  rw [closeBraceFrom, if_pos rfl]

theorem closeBraceFrom_open (depth : Nat) (rest : Bytes) :
    closeBraceFrom depth (dollar :: openBrace :: rest)
      = (closeBraceFrom (depth + 1) rest).map (· + 2) := by
  rw [closeBraceFrom, if_neg (by decide), if_pos ⟨rfl, rfl⟩]

/-- The brace that closes the expression is found. -/
theorem closeBraceFrom_close (rest : Bytes) : closeBraceFrom 1 (closeBrace :: rest) = some 0 := by
  cases rest with
  | nil => rfl
  | cons d rest =>
    rw [closeBraceFrom, if_neg (by decide), if_neg fun h => absurd h.1 (by decide),
      if_pos rfl]
    rfl

/-- A brace that closes a nested expression is passed. -/
theorem closeBraceFrom_close_succ (depth : Nat) (rest : Bytes) :
    closeBraceFrom (depth + 2) (closeBrace :: rest)
      = (closeBraceFrom (depth + 1) rest).map (· + 1) := by
  cases rest with
  | nil => simp [closeBraceFrom]
  | cons d rest =>
    rw [closeBraceFrom, if_neg (by decide), if_neg fun h => absurd h.1 (by decide), if_pos rfl,
      if_neg (by omega)]
    rfl

/-- A character that means nothing to the finder is passed. -/
theorem closeBraceFrom_char (depth : Nat) {c : Byte} {rest : Bytes} (hescape : c ≠ backslash)
    (hopen : ¬ (c = dollar ∧ rest.head? = some openBrace)) (hclose : c ≠ closeBrace) :
    closeBraceFrom depth (c :: rest) = (closeBraceFrom depth rest).map (· + 1) := by
  cases rest with
  | nil => simp [closeBraceFrom, hclose]
  | cons d rest =>
    rw [closeBraceFrom, if_neg hescape, if_neg fun h => hopen ⟨h.1, by rw [h.2]; rfl⟩,
      if_neg hclose]

theorem topLevelOperatorFrom_escape (depth : Nat) (c : Byte) (rest : Bytes) :
    topLevelOperatorFrom depth (backslash :: c :: rest)
      = (topLevelOperatorFrom depth rest).map (· + 2) := by
  rw [topLevelOperatorFrom, if_pos rfl]

theorem topLevelOperatorFrom_open (depth : Nat) (rest : Bytes) :
    topLevelOperatorFrom depth (dollar :: openBrace :: rest)
      = (topLevelOperatorFrom (depth + 1) rest).map (· + 2) := by
  rw [topLevelOperatorFrom, if_neg (by decide), if_pos ⟨rfl, rfl⟩]

theorem topLevelOperatorFrom_close (depth : Nat) (rest : Bytes) :
    topLevelOperatorFrom depth (closeBrace :: rest)
      = (topLevelOperatorFrom (depth - 1) rest).map (· + 1) := by
  cases rest with
  | nil => rfl
  | cons d rest =>
    rw [topLevelOperatorFrom, if_neg (by decide), if_neg fun h => absurd h.1 (by decide),
      if_pos rfl]

theorem topLevelOperatorFrom_operator {op : Byte} (hop : op = minus ∨ op = plus) (rest : Bytes) :
    topLevelOperatorFrom 0 (colon :: op :: rest) = some 0 := by
  rw [topLevelOperatorFrom, if_neg (by decide), if_neg fun h => absurd h.1 (by decide),
    if_neg (by decide), if_pos ⟨rfl, rfl, hop⟩]

/-- A character that means nothing to the finder, or a colon inside braces, is passed. -/
theorem topLevelOperatorFrom_char (depth : Nat) {c : Byte} {rest : Bytes} (hescape : c ≠ backslash)
    (hopen : ¬ (c = dollar ∧ rest.head? = some openBrace)) (hclose : c ≠ closeBrace)
    (hcolon : c = colon → depth ≠ 0) :
    topLevelOperatorFrom depth (c :: rest) = (topLevelOperatorFrom depth rest).map (· + 1) := by
  cases rest with
  | nil => rfl
  | cons d rest =>
    rw [topLevelOperatorFrom, if_neg hescape, if_neg fun h => hopen ⟨h.1, by rw [h.2]; rfl⟩,
      if_neg hclose, if_neg fun h => hcolon h.2.1 h.1]

section Loop

variable (environment : Environment) (next : Bytes → Bytes)

/-- The loop goes on after the characters it has consumed. -/
theorem expandLoop_append (consumed rest : Bytes) :
    expandLoop environment next consumed.length (consumed ++ rest)
      = expandLoop environment next 0 rest := by
  induction consumed with
  | nil => rfl
  | cons c consumed ih =>
    rw [List.length_cons, List.cons_append, expandLoop]
    exact ih

theorem expandLoop_escape (rest : Bytes) :
    expandLoop environment next 0 (backslash :: dollar :: rest)
      = dollar :: expandLoop environment next 0 rest := by
  rw [expandLoop, if_pos ⟨rfl, rfl⟩]
  exact congrArg _ (expandLoop_append environment next [dollar] rest)

theorem expandLoop_variable {name rest : Bytes} (hne : name ≠ [])
    (hname : ∀ c ∈ name, isVariableNameChar c = true)
    (hrest : ∀ c ∈ rest.head?, isVariableNameChar c = false) :
    expandLoop environment next 0 (dollar :: (name ++ rest))
      = environment.getenv name ++ expandLoop environment next 0 rest := by
  -- the source reads the longest name that it can
  have htake : (name ++ rest).takeWhile isVariableNameChar = name := by
    rw [List.takeWhile_append_of_pos hname]
    cases rest with
    | nil => exact List.append_nil _
    | cons d rest =>
      rw [List.takeWhile_cons_of_neg (by simp [hrest d rfl]), List.append_nil]
  obtain ⟨d, name', rfl⟩ := List.exists_cons_of_ne_nil hne
  have hd : isVariableNameChar d = true := hname d List.mem_cons_self
  have hbrace : d ≠ openBrace := by rintro rfl; exact absurd hd (by decide)
  rw [expandLoop, if_neg (by simp [dollar, backslash]), if_pos rfl]
  show (if d = openBrace then _ else if isVariableNameChar d then _ else _) = _
  rw [if_neg hbrace, if_pos hd, htake, expandLoop_append]

theorem expandLoop_braced {content : Bytes} (rest : Bytes)
    (hclose : findMatchingCloseBrace (content ++ closeBrace :: rest) = some content.length) :
    expandLoop environment next 0 (dollar :: openBrace :: (content ++ closeBrace :: rest))
      = expandBraced environment next content ++ expandLoop environment next 0 rest := by
  rw [expandLoop, if_neg (by simp [dollar, backslash]), if_pos rfl]
  show (if openBrace = openBrace then _ else _) = _
  rw [if_pos rfl, List.drop_one, List.tail_cons, hclose]
  show expandBraced environment next ((content ++ closeBrace :: rest).take content.length)
    ++ expandLoop environment next (1 + content.length + 1)
      (openBrace :: (content ++ closeBrace :: rest)) = _
  have hconsumed := expandLoop_append environment next (openBrace :: (content ++ [closeBrace])) rest
  rw [List.length_cons, List.length_append, List.cons_append, List.append_assoc,
    List.length_singleton, List.singleton_append] at hconsumed
  rw [List.take_left, show 1 + content.length + 1 = content.length + 1 + 1 by omega, hconsumed]

/-- A character that starts nothing is copied. -/
theorem expandLoop_char {c : Byte} {rest : Bytes}
    (hescape : ¬ (c = backslash ∧ rest.head? = some dollar))
    (hname : c = dollar → ∀ d ∈ rest.head?, isVariableNameChar d = false)
    (hbrace : c = dollar → rest.head? = some openBrace →
      findMatchingCloseBrace (rest.drop 1) = none) :
    expandLoop environment next 0 (c :: rest) = c :: expandLoop environment next 0 rest := by
  rw [expandLoop, if_neg hescape]
  by_cases hc : c = dollar
  · subst hc
    rw [if_pos rfl]
    cases rest with
    | nil => rfl
    | cons d rest =>
      show (if d = openBrace then _ else if isVariableNameChar d then _ else _) = _
      by_cases hd : d = openBrace
      · subst hd
        -- without a closing brace both characters of `${` are copied in one round
        have hrest : expandLoop environment next 0 (openBrace :: rest)
            = openBrace :: expandLoop environment next 0 rest := by
          rw [expandLoop, if_neg (by simp [openBrace, backslash]), if_neg (by decide)]
        rw [if_pos rfl, hbrace rfl rfl, hrest]
        show dollar :: openBrace :: expandLoop environment next 1 (openBrace :: rest) = _
        rw [← expandLoop_append environment next [openBrace] rest]
        rfl
      · rw [if_neg hd, if_neg (by simp [hname rfl d rfl])]
  · rw [if_neg hc]

end Loop

end LibAtapp.Conf
