import LibAtapp.Conf.Expression
import LibAtapp.Library.Scanner

set_option autoImplicit false

/-! # The grammar of environment expressions

What an expression is, how it is written and what it stands for, independently of the scanners,
and that the expansion of what is written is what it stands for. For inputs that are no
expression, a cut into recognised expressions and single characters says what the expansion does
with each piece. -/

namespace LibAtapp.Conf

open Scanner

/-! ## Expressions -/

/-- A sequence of literals, escaped dollars, variables and braced expressions. -/
inductive Expression
  | done
  | literal (text : Bytes) (rest : Expression)
  | escapedDollar (rest : Expression)
  | bare (name : Bytes) (rest : Expression)
  | braced (name rest : Expression)
  | orDefault (name word rest : Expression)
  | orAlternate (name word rest : Expression)

namespace Expression

/-- The text of an expression. -/
def print : Expression → Bytes
  | done => []
  | literal text rest => text ++ rest.print
  | escapedDollar rest => backslash :: dollar :: rest.print
  | bare name rest => dollar :: (name ++ rest.print)
  | braced name rest => dollar :: openBrace :: (name.print ++ closeBrace :: rest.print)
  | orDefault name word rest =>
    dollar :: openBrace ::
      (name.print ++ colon :: minus :: (word.print ++ closeBrace :: rest.print))
  | orAlternate name word rest =>
    dollar :: openBrace ::
      (name.print ++ colon :: plus :: (word.print ++ closeBrace :: rest.print))

/-- What an expression stands for, when `lookup` gives the values of the variables. -/
def eval (lookup : Bytes → Bytes) : Expression → Bytes
  | done => []
  | literal text rest => text ++ rest.eval lookup
  | escapedDollar rest => dollar :: rest.eval lookup
  | bare name rest => lookup name ++ rest.eval lookup
  | braced name rest => lookup (name.eval lookup) ++ rest.eval lookup
  | orDefault name word rest =>
    (if lookup (name.eval lookup) = [] then word.eval lookup else lookup (name.eval lookup))
      ++ rest.eval lookup
  | orAlternate name word rest =>
    (if lookup (name.eval lookup) = [] then [] else word.eval lookup) ++ rest.eval lookup

/-- How deep braced expressions are nested. -/
def nesting : Expression → Nat
  | done => 0
  | literal _ rest => rest.nesting
  | escapedDollar rest => rest.nesting
  | bare _ rest => rest.nesting
  | braced name rest => max (name.nesting + 1) rest.nesting
  | orDefault name word rest => max (max name.nesting word.nesting + 1) rest.nesting
  | orAlternate name word rest => max (max name.nesting word.nesting + 1) rest.nesting

/-- The characters that a literal may not contain. -/
def special : List Byte := [dollar, backslash, openBrace, closeBrace, colon]

/-- Literals contain no special character, and the name of a variable is a longest one. -/
def WellFormed : Expression → Prop
  | done => True
  | literal text rest => (∀ c ∈ text, c ∉ special) ∧ rest.WellFormed
  | escapedDollar rest => rest.WellFormed
  | bare name rest =>
    name ≠ [] ∧ (∀ c ∈ name, isVariableNameChar c = true) ∧
      (∀ c ∈ rest.print.head?, isVariableNameChar c = false) ∧ rest.WellFormed
  | braced name rest => name.WellFormed ∧ rest.WellFormed
  | orDefault name word rest => name.WellFormed ∧ word.WellFormed ∧ rest.WellFormed
  | orAlternate name word rest => name.WellFormed ∧ word.WellFormed ∧ rest.WellFormed

instance decidableWellFormed : (e : Expression) → Decidable e.WellFormed
  | done => inferInstanceAs (Decidable True)
  | literal text rest =>
    have := decidableWellFormed rest
    inferInstanceAs (Decidable ((∀ c ∈ text, c ∉ special) ∧ rest.WellFormed))
  | escapedDollar rest => decidableWellFormed rest
  | bare name rest =>
    have := decidableWellFormed rest
    inferInstanceAs (Decidable (name ≠ [] ∧ (∀ c ∈ name, isVariableNameChar c = true) ∧
      (∀ c ∈ rest.print.head?, isVariableNameChar c = false) ∧ rest.WellFormed))
  | braced name rest =>
    have := decidableWellFormed name
    have := decidableWellFormed rest
    inferInstanceAs (Decidable (name.WellFormed ∧ rest.WellFormed))
  | orDefault name word rest | orAlternate name word rest =>
    have := decidableWellFormed name
    have := decidableWellFormed word
    have := decidableWellFormed rest
    inferInstanceAs (Decidable (name.WellFormed ∧ word.WellFormed ∧ rest.WellFormed))

end Expression

/-! ## The finders on printed expressions

Both finders walk over a printed expression without a trace, whatever follows it. -/

/-- A character that is no special one. -/
theorem ne_of_not_special {c : Byte} (h : c ∉ Expression.special) :
    c ≠ dollar ∧ c ≠ backslash ∧ c ≠ closeBrace ∧ c ≠ colon := by
  simp only [Expression.special, List.mem_cons, not_or] at h
  exact ⟨h.1, h.2.1, h.2.2.2.1, h.2.2.2.2.1⟩

theorem not_special_of_isVariableNameChar {c : Byte} (h : isVariableNameChar c = true) :
    c ∉ Expression.special := by
  intro hspecial
  simp only [Expression.special, List.mem_cons, List.not_mem_nil, or_false] at hspecial
  obtain rfl | rfl | rfl | rfl | rfl := hspecial
  all_goals exact absurd h (by decide)

/-- A name does not start with a brace. -/
theorem head_append_ne_openBrace {name : Bytes} (tail : Bytes) (hne : name ≠ [])
    (hname : ∀ c ∈ name, isVariableNameChar c = true) :
    (name ++ tail).head? ≠ some openBrace := by
  obtain ⟨d, name, rfl⟩ := List.exists_cons_of_ne_nil hne
  intro hd
  rw [List.cons_append, List.head?_cons, Option.some.injEq] at hd
  exact absurd (hname d List.mem_cons_self) (by rw [hd]; decide)

/-! The finder of the closing brace. -/

theorem closeBraceFrom_passes_plain (depth : Nat) {text : Bytes}
    (h : ∀ c ∈ text, c ∉ Expression.special) : Passes closeBraceFrom depth text := by
  refine Passes.plain fun c hc rest => ?_
  obtain ⟨hdollar, hescape, hclose, -⟩ := ne_of_not_special (h c hc)
  exact closeBraceFrom_char depth hescape (fun hopen => hdollar hopen.1) hclose

theorem closeBraceFrom_passes_bare (depth : Nat) {name : Bytes} (hne : name ≠ [])
    (hname : ∀ c ∈ name, isVariableNameChar c = true) :
    Passes closeBraceFrom depth (dollar :: name) := by
  intro tail
  have hplain := closeBraceFrom_passes_plain depth
    fun c hc => not_special_of_isVariableNameChar (hname c hc)
  rw [List.cons_append, closeBraceFrom_char depth (by decide)
    (fun h => head_append_ne_openBrace tail hne hname h.2) (by decide), hplain, map_add_add]
  rfl

theorem closeBraceFrom_passes_operator (depth : Nat) {op : Byte} (hop : op = minus ∨ op = plus) :
    Passes closeBraceFrom depth [colon, op] := by
  refine Passes.plain fun c hc rest => ?_
  obtain rfl | rfl : c = colon ∨ c = op := by simpa using hc
  · exact closeBraceFrom_char depth (by decide) (fun h => absurd h.1 (by decide)) (by decide)
  · obtain rfl | rfl := hop
    · exact closeBraceFrom_char depth (by decide) (fun h => absurd h.1 (by decide)) (by decide)
    · exact closeBraceFrom_char depth (by decide) (fun h => absurd h.1 (by decide)) (by decide)

theorem closeBraceFrom_passes_group {depth : Nat} {inner : Bytes}
    (h : Passes closeBraceFrom (depth + 2) inner) :
    Passes closeBraceFrom (depth + 1) ([dollar, openBrace] ++ (inner ++ [closeBrace])) :=
  Passes.group (closeBraceFrom_open (depth + 1)) (closeBraceFrom_close_succ depth) h

/-- A printed expression is passed at every depth. -/
theorem closeBraceFrom_passes_print (e : Expression) (hwell : e.WellFormed) (depth : Nat) :
    Passes closeBraceFrom (depth + 1) e.print := by
  induction e generalizing depth with
  | done => exact Passes.nil
  | literal text rest ih =>
    exact (closeBraceFrom_passes_plain _ hwell.1).append (ih hwell.2 depth)
  | escapedDollar rest ih =>
    have hescape : Passes closeBraceFrom (depth + 1) [backslash, dollar] :=
      closeBraceFrom_escape (depth + 1) dollar
    exact hescape.append (ih hwell depth)
  | bare name rest ih =>
    obtain ⟨hne, hname, -, hrest⟩ := hwell
    exact (closeBraceFrom_passes_bare _ hne hname).append (ih hrest depth)
  | braced name rest ihname ihrest =>
    have hgroup := closeBraceFrom_passes_group (ihname hwell.1 (depth + 1))
    simpa [Expression.print] using hgroup.append (ihrest hwell.2 depth)
  | orDefault name word rest ihname ihword ihrest =>
    have hinner := (ihname hwell.1 (depth + 1)).append
      ((closeBraceFrom_passes_operator _ (.inl rfl)).append (ihword hwell.2.1 (depth + 1)))
    simpa [Expression.print] using
      (closeBraceFrom_passes_group hinner).append (ihrest hwell.2.2 depth)
  | orAlternate name word rest ihname ihword ihrest =>
    have hinner := (ihname hwell.1 (depth + 1)).append
      ((closeBraceFrom_passes_operator _ (.inr rfl)).append (ihword hwell.2.1 (depth + 1)))
    simpa [Expression.print] using
      (closeBraceFrom_passes_group hinner).append (ihrest hwell.2.2 depth)

/-! The finder of the operator. -/

theorem topLevelOperatorFrom_passes_plain (depth : Nat) {text : Bytes}
    (h : ∀ c ∈ text, c ∉ Expression.special) : Passes topLevelOperatorFrom depth text := by
  refine Passes.plain fun c hc rest => ?_
  obtain ⟨hdollar, hescape, hclose, hcolon⟩ := ne_of_not_special (h c hc)
  exact topLevelOperatorFrom_char depth hescape (fun hopen => hdollar hopen.1) hclose
    fun h => absurd h hcolon

theorem topLevelOperatorFrom_passes_bare (depth : Nat) {name : Bytes} (hne : name ≠ [])
    (hname : ∀ c ∈ name, isVariableNameChar c = true) :
    Passes topLevelOperatorFrom depth (dollar :: name) := by
  intro tail
  have hplain := topLevelOperatorFrom_passes_plain depth
    fun c hc => not_special_of_isVariableNameChar (hname c hc)
  rw [List.cons_append, topLevelOperatorFrom_char depth (by decide)
    (fun h => head_append_ne_openBrace tail hne hname h.2) (by decide)
    (fun h => absurd h (by decide)), hplain, map_add_add]
  rfl

/-- An operator inside braces is passed. -/
theorem topLevelOperatorFrom_passes_operator (depth : Nat) {op : Byte}
    (hop : op = minus ∨ op = plus) : Passes topLevelOperatorFrom (depth + 1) [colon, op] := by
  refine Passes.plain fun c hc rest => ?_
  have hsafe : c ≠ backslash ∧ c ≠ dollar ∧ c ≠ closeBrace := by
    obtain rfl | rfl : c = colon ∨ c = op := by simpa using hc
    · decide
    · obtain rfl | rfl := hop
      · decide
      · decide
  exact topLevelOperatorFrom_char _ hsafe.1 (fun h => hsafe.2.1 h.1) hsafe.2.2
    fun _ => Nat.succ_ne_zero depth

theorem topLevelOperatorFrom_passes_group {depth : Nat} {inner : Bytes}
    (h : Passes topLevelOperatorFrom (depth + 1) inner) :
    Passes topLevelOperatorFrom depth ([dollar, openBrace] ++ (inner ++ [closeBrace])) :=
  Passes.group (topLevelOperatorFrom_open depth) (topLevelOperatorFrom_close (depth + 1)) h

/-- A printed expression is passed at every depth, the top level included. -/
theorem topLevelOperatorFrom_passes_print (e : Expression) (hwell : e.WellFormed) (depth : Nat) :
    Passes topLevelOperatorFrom depth e.print := by
  induction e generalizing depth with
  | done => exact Passes.nil
  | literal text rest ih =>
    exact (topLevelOperatorFrom_passes_plain _ hwell.1).append (ih hwell.2 depth)
  | escapedDollar rest ih =>
    have hescape : Passes topLevelOperatorFrom depth [backslash, dollar] :=
      topLevelOperatorFrom_escape depth dollar
    exact hescape.append (ih hwell depth)
  | bare name rest ih =>
    obtain ⟨hne, hname, -, hrest⟩ := hwell
    exact (topLevelOperatorFrom_passes_bare _ hne hname).append (ih hrest depth)
  | braced name rest ihname ihrest =>
    have hgroup := topLevelOperatorFrom_passes_group (ihname hwell.1 (depth + 1))
    simpa [Expression.print] using hgroup.append (ihrest hwell.2 depth)
  | orDefault name word rest ihname ihword ihrest =>
    have hinner := (ihname hwell.1 (depth + 1)).append
      ((topLevelOperatorFrom_passes_operator _ (.inl rfl)).append
        (ihword hwell.2.1 (depth + 1)))
    simpa [Expression.print] using
      (topLevelOperatorFrom_passes_group hinner).append (ihrest hwell.2.2 depth)
  | orAlternate name word rest ihname ihword ihrest =>
    have hinner := (ihname hwell.1 (depth + 1)).append
      ((topLevelOperatorFrom_passes_operator _ (.inr rfl)).append
        (ihword hwell.2.1 (depth + 1)))
    simpa [Expression.print] using
      (topLevelOperatorFrom_passes_group hinner).append (ihrest hwell.2.2 depth)

/-! ## The expansion of printed expressions -/

/-- The closing brace of what is passed is the next one. -/
theorem findMatchingCloseBrace_passes {content : Bytes} (rest : Bytes)
    (h : Passes closeBraceFrom 1 content) :
    findMatchingCloseBrace (content ++ closeBrace :: rest) = some content.length := by
  rw [findMatchingCloseBrace, h, closeBraceFrom_close, Option.map_some, Nat.zero_add]

section Expansion

variable (environment : Environment) (next : Bytes → Bytes)

/-- `${name}` looks the expanded name up. -/
theorem expandBraced_print {name : Expression} (hwell : name.WellFormed) :
    expandBraced environment next name.print = environment.getenv (next name.print) := by
  have hnone : findTopLevelOperator name.print = none := by
    have hpassed := topLevelOperatorFrom_passes_print name hwell 0 []
    rw [List.append_nil] at hpassed
    exact hpassed
  rw [expandBraced, hnone]

/-- The operator is found between the name and the word. -/
theorem findTopLevelOperator_print {name : Expression} (hwell : name.WellFormed) {op : Byte}
    (hop : op = minus ∨ op = plus) (word : Bytes) :
    findTopLevelOperator (name.print ++ colon :: op :: word) = some name.print.length := by
  rw [findTopLevelOperator, topLevelOperatorFrom_passes_print name hwell,
    topLevelOperatorFrom_operator hop, Option.map_some, Nat.zero_add]

/-- `${name:-word}` and `${name:+word}` look the expanded name up and choose. -/
theorem expandBraced_operator {name : Expression} (hwell : name.WellFormed) {op : Byte}
    (hop : op = minus ∨ op = plus) (word : Bytes) :
    expandBraced environment next (name.print ++ colon :: op :: word)
      = if op = minus then
          if environment.getenv (next name.print) = [] then next word
          else environment.getenv (next name.print)
        else if environment.getenv (next name.print) = [] then [] else next word := by
  have hop' : (name.print ++ colon :: op :: word)[name.print.length + 1]? = some op := by
    rw [List.getElem?_append_right (by omega)]
    simp
  have hname : (name.print ++ colon :: op :: word).take name.print.length = name.print :=
    List.take_left
  have hword : (name.print ++ colon :: op :: word).drop (name.print.length + 2) = word := by
    rw [← List.drop_drop, List.drop_left]
    rfl
  rw [expandBraced, findTopLevelOperator_print hwell hop]
  show (if (name.print ++ colon :: op :: word)[name.print.length + 1]? = some minus then _
    else _) = _
  rw [hop', hname, hword]
  by_cases hminus : op = minus
  · rw [if_pos hminus, if_pos (congrArg some hminus)]
  · rw [if_neg hminus, if_neg fun h => hminus (Option.some.inj h)]

end Expansion

section Levels

variable (environment : Environment) (levels : Nat)

/-- Plain text is copied. -/
theorem expandLevels_plain {text : Bytes} (rest : Bytes)
    (h : ∀ c ∈ text, c ∉ Expression.special) :
    expandLevels environment (levels + 1) (text ++ rest)
      = text ++ expandLevels environment (levels + 1) rest := by
  induction text with
  | nil => rfl
  | cons c text ih =>
    obtain ⟨hdollar, hescape, -, -⟩ := ne_of_not_special (h c List.mem_cons_self)
    rw [List.cons_append, expandLevels, expandLoop_char _ _ (fun h => hescape h.1)
      (fun h => absurd h hdollar) (fun h => absurd h hdollar)]
    exact congrArg _ (ih fun d hd => h d (List.mem_cons_of_mem c hd))

/-- A braced expression is replaced, and the expansion goes on after its closing brace. -/
theorem expandLevels_braced {content : Bytes} (rest : Bytes)
    (h : Passes closeBraceFrom 1 content) :
    expandLevels environment (levels + 1) (dollar :: openBrace :: (content ++ closeBrace :: rest))
      = expandBraced environment (expandLevels environment levels) content
        ++ expandLevels environment (levels + 1) rest := by
  rw [expandLevels, expandLoop_braced _ _ rest (findMatchingCloseBrace_passes rest h)]
  rfl

end Levels

/-- An operator expression is replaced by what `expandBraced_operator` says. -/
theorem expandLevels_operator (environment : Environment) (levels : Nat) {name word : Expression}
    (hname : name.WellFormed) (hword : word.WellFormed) {op : Byte} (hop : op = minus ∨ op = plus)
    (rest : Bytes) :
    expandLevels environment (levels + 1) (dollar :: openBrace ::
        (name.print ++ colon :: op :: (word.print ++ closeBrace :: rest)))
      = expandBraced environment (expandLevels environment levels)
          (name.print ++ colon :: op :: word.print)
        ++ expandLevels environment (levels + 1) rest := by
  have hpassed : Passes closeBraceFrom 1 (name.print ++ colon :: op :: word.print) :=
    (closeBraceFrom_passes_print name hname 0).append
      ((closeBraceFrom_passes_operator 1 hop).append (closeBraceFrom_passes_print word hword 0))
  have hgroup := expandLevels_braced environment levels rest hpassed
  rw [List.append_assoc] at hgroup
  exact hgroup

/-- The expansion of a printed expression is what the expression stands for, as long as there are
    enough levels for its nesting. -/
theorem expandLevels_print (environment : Environment) (e : Expression) (hwell : e.WellFormed)
    (levels : Nat) (hlevels : e.nesting ≤ levels) :
    expandLevels environment (levels + 1) e.print = e.eval environment.getenv := by
  induction e generalizing levels with
  | done => rfl
  | literal text rest ih =>
    obtain ⟨htext, hrest⟩ := hwell
    rw [Expression.print, expandLevels_plain _ _ _ htext]
    exact congrArg _ (ih hrest levels hlevels)
  | escapedDollar rest ih =>
    rw [expandLevels, Expression.print, expandLoop_escape]
    exact congrArg _ (ih hwell levels hlevels)
  | bare name rest ih =>
    obtain ⟨hne, hname, hhead, hrest⟩ := hwell
    rw [expandLevels, Expression.print, expandLoop_variable _ _ hne hname hhead]
    exact congrArg _ (ih hrest levels hlevels)
  | braced name rest ihname ihrest =>
    obtain ⟨hname, hrest⟩ := hwell
    obtain ⟨hnested, hlater⟩ := Nat.max_le.1 hlevels
    -- the name is expanded one level deeper
    obtain ⟨deeper, rfl⟩ := Nat.exists_eq_add_one.2 (Nat.lt_of_lt_of_le (Nat.succ_pos _) hnested)
    rw [Expression.print, expandLevels_braced _ _ _ (closeBraceFrom_passes_print name hname 0),
      expandBraced_print _ _ hname, ihname hname deeper (by omega), ihrest hrest _ hlater,
      Expression.eval]
  | orDefault name word rest ihname ihword ihrest =>
    obtain ⟨hname, hword, hrest⟩ := hwell
    obtain ⟨hnested, hlater⟩ := Nat.max_le.1 hlevels
    obtain ⟨deeper, rfl⟩ := Nat.exists_eq_add_one.2 (Nat.lt_of_lt_of_le (Nat.succ_pos _) hnested)
    rw [Expression.print, expandLevels_operator _ _ hname hword (.inl rfl),
      expandBraced_operator _ _ hname (.inl rfl), if_pos rfl, ihname hname deeper (by omega),
      ihword hword deeper (by omega), ihrest hrest _ hlater, Expression.eval]
  | orAlternate name word rest ihname ihword ihrest =>
    obtain ⟨hname, hword, hrest⟩ := hwell
    obtain ⟨hnested, hlater⟩ := Nat.max_le.1 hlevels
    obtain ⟨deeper, rfl⟩ := Nat.exists_eq_add_one.2 (Nat.lt_of_lt_of_le (Nat.succ_pos _) hnested)
    rw [Expression.print, expandLevels_operator _ _ hname hword (.inr rfl),
      expandBraced_operator _ _ hname (.inr rfl), if_neg (by decide),
      ihname hname deeper (by omega), ihword hword deeper (by omega), ihrest hrest _ hlater,
      Expression.eval]

/-- Variables are looked up by their exact names when no literal and no value contains a NUL. -/
theorem Expression.eval_getenv (environment : Environment)
    (hvalues : ∀ name, (0 : Byte) ∉ environment name) (e : Expression)
    (hnul : (0 : Byte) ∉ e.print) :
    e.eval environment.getenv = e.eval environment ∧ (0 : Byte) ∉ e.eval environment := by
  induction e with
  | done => exact ⟨rfl, List.not_mem_nil⟩
  | literal text rest ih =>
    simp only [print, List.mem_append, not_or] at hnul
    simp [eval, ih hnul.2, hnul.1]
  | escapedDollar rest ih =>
    simp only [print, List.mem_cons, not_or] at hnul
    simp [eval, ih hnul.2.2, hnul.2.1]
  | bare name rest ih =>
    simp only [print, List.mem_cons, List.mem_append, not_or] at hnul
    simp [eval, ih hnul.2.2, hvalues, environment.getenv_eq hnul.2.1]
  | braced name rest ihname ihrest =>
    simp only [print, List.mem_cons, List.mem_append, not_or] at hnul
    obtain ⟨hname, hfree⟩ := ihname hnul.2.2.1
    simp [eval, hname, hvalues, environment.getenv_eq hfree, ihrest hnul.2.2.2.2]
  | orDefault name word rest ihname ihword ihrest =>
    simp only [print, List.mem_cons, List.mem_append, not_or] at hnul
    obtain ⟨hname, hfree⟩ := ihname hnul.2.2.1
    obtain ⟨hword, hwordfree⟩ := ihword hnul.2.2.2.2.2.1
    obtain ⟨hrest, hrestfree⟩ := ihrest hnul.2.2.2.2.2.2.2
    simp only [eval, hname, hword, hrest, environment.getenv_eq hfree, List.mem_append, not_or,
      true_and]
    split_ifs
    · exact ⟨hwordfree, hrestfree⟩
    · exact ⟨hvalues _, hrestfree⟩
  | orAlternate name word rest ihname ihword ihrest =>
    simp only [print, List.mem_cons, List.mem_append, not_or] at hnul
    obtain ⟨hname, hfree⟩ := ihname hnul.2.2.1
    obtain ⟨hword, hwordfree⟩ := ihword hnul.2.2.2.2.2.1
    obtain ⟨hrest, hrestfree⟩ := ihrest hnul.2.2.2.2.2.2.2
    simp only [eval, hname, hword, hrest, environment.getenv_eq hfree, List.mem_append, not_or,
      true_and]
    split_ifs
    · exact ⟨List.not_mem_nil, hrestfree⟩
    · exact ⟨hwordfree, hrestfree⟩

end LibAtapp.Conf
