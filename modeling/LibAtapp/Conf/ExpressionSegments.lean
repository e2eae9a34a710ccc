import LibAtapp.Conf.ExpressionGrammar

set_option autoImplicit false

/-! # Expansion of arbitrary inputs

An input that is no expression is expanded piece by piece: whatever starts a recognised
expression (an escaped dollar, a `$` with a name, a `${` that is closed) is replaced, and every
other character is copied. The cut is stated without the scanners, through what text a closing
brace can close. -/

namespace LibAtapp.Conf

/-! ## What a closing brace closes -/

/-- Text in which every `${` is closed and no other brace closes anything; a backslash hides the
    character after it. -/
inductive Balanced : Bytes → Prop
  | nil : Balanced []
  | escape (c : Byte) {rest : Bytes} : Balanced rest → Balanced (backslash :: c :: rest)
  | nested {inner rest : Bytes} : Balanced inner → Balanced rest →
      Balanced (dollar :: openBrace :: (inner ++ closeBrace :: rest))
  | char {c : Byte} {rest : Bytes} : c ≠ backslash → c ≠ closeBrace →
      ¬ (c = dollar ∧ rest.head? = some openBrace) → Balanced rest → Balanced (c :: rest)

/-- The finder passes over balanced text that a closing brace follows. -/
theorem closeBraceFrom_balanced {content : Bytes} (h : Balanced content) (depth : Nat)
    (tail : Bytes) :
    closeBraceFrom (depth + 1) (content ++ closeBrace :: tail)
      = (closeBraceFrom (depth + 1) (closeBrace :: tail)).map (· + content.length) := by
  induction h generalizing depth tail with
  | nil => simp
  | escape c _ ih =>
    rw [List.cons_append, List.cons_append, closeBraceFrom_escape, ih, Scanner.map_add_add]
    rfl
  | @nested inner rest _ _ ihinner ihrest =>
    rw [List.cons_append, List.cons_append, List.append_assoc, closeBraceFrom_open,
      List.cons_append, ihinner, closeBraceFrom_close_succ, ihrest, Scanner.map_add_add,
      Scanner.map_add_add, Scanner.map_add_add]
    simp only [List.length_cons, List.length_append]
    congr 2
    funext n
    omega
  | @char c rest hescape hclose hopen _ ih =>
    have hopen' : ¬ (c = dollar ∧ (rest ++ closeBrace :: tail).head? = some openBrace) := by
      rintro ⟨hc, hhead⟩
      cases rest with
      | nil => exact absurd (Option.some.inj hhead) (by decide)
      | cons d rest => exact hopen ⟨hc, hhead⟩
    rw [List.cons_append, closeBraceFrom_char _ hescape hopen' hclose, ih, Scanner.map_add_add]
    rfl

/-- The finder stops only after balanced text that a closing brace follows. -/
theorem balanced_of_closeBraceFrom {text : Bytes} {depth k : Nat}
    (h : closeBraceFrom (depth + 1) text = some k) :
    ∃ content tail l, text = content ++ closeBrace :: tail ∧ Balanced content ∧
      closeBraceFrom (depth + 1) (closeBrace :: tail) = some l ∧ k = l + content.length := by
  -- by induction on the length: what follows a nested expression is no tail of this round's text
  induction hlength : text.length using Nat.strong_induction_on generalizing text depth k with
  | _ length ih =>
  subst hlength
  cases text with
  | nil => exact absurd h (by simp [closeBraceFrom])
  | cons c rest =>
    by_cases hescape : c = backslash
    · subst hescape
      cases rest with
      | nil => exact absurd h (by simp [closeBraceFrom, backslash, closeBrace])
      | cons d rest =>
        rw [closeBraceFrom_escape] at h
        obtain ⟨l, hl, rfl⟩ := Option.map_eq_some_iff.1 h
        obtain ⟨content, tail, k, rfl, hbalanced, hk, rfl⟩ := ih rest.length (by grind) hl rfl
        exact ⟨backslash :: d :: content, tail, k, rfl, hbalanced.escape d, hk, rfl⟩
    by_cases hopen : c = dollar ∧ rest.head? = some openBrace
    · obtain ⟨rfl, hhead⟩ := hopen
      obtain ⟨rest, rfl⟩ := List.head?_eq_some_iff.1 hhead
      rw [closeBraceFrom_open] at h
      obtain ⟨l, hl, rfl⟩ := Option.map_eq_some_iff.1 h
      -- first the nested expression, then what is left of the outer one
      obtain ⟨inner, later, k, rfl, hinner, hk, rfl⟩ := ih rest.length (by grind) hl rfl
      rw [closeBraceFrom_close_succ] at hk
      obtain ⟨m, hm, rfl⟩ := Option.map_eq_some_iff.1 hk
      obtain ⟨content, tail, j, rfl, hcontent, hj, rfl⟩ :=
        ih later.length (by grind) hm rfl
      refine ⟨dollar :: openBrace :: (inner ++ closeBrace :: content), tail, j, by simp,
        hinner.nested hcontent, hj, ?_⟩
      simp only [List.length_cons, List.length_append]
      omega
    by_cases hclose : c = closeBrace
    · subst hclose
      exact ⟨[], rest, k, rfl, Balanced.nil, h, rfl⟩
    · rw [closeBraceFrom_char _ hescape hopen hclose] at h
      obtain ⟨l, hl, rfl⟩ := Option.map_eq_some_iff.1 h
      obtain ⟨content, tail, k, rfl, hbalanced, hk, rfl⟩ := ih rest.length (by simp) hl rfl
      have hopen' : ¬ (c = dollar ∧ content.head? = some openBrace) := by
        rintro ⟨hc, hhead⟩
        obtain ⟨content, rfl⟩ := List.head?_eq_some_iff.1 hhead
        exact hopen ⟨hc, rfl⟩
      exact ⟨c :: content, tail, k, rfl, hbalanced.char hescape hclose hopen', hk, rfl⟩

/-- The finder of the source returns the end of the balanced text before a closing brace, if there
    is such text. -/
theorem findMatchingCloseBrace_eq_some_iff {text : Bytes} {k : Nat} :
    findMatchingCloseBrace text = some k ↔
      ∃ content tail, text = content ++ closeBrace :: tail ∧ Balanced content ∧
        k = content.length := by
  constructor
  · intro h
    obtain ⟨content, tail, l, rfl, hbalanced, hl, rfl⟩ := balanced_of_closeBraceFrom h
    rw [closeBraceFrom_close, Option.some.injEq] at hl
    subst hl
    exact ⟨content, tail, rfl, hbalanced, Nat.zero_add _⟩
  · rintro ⟨content, tail, rfl, hbalanced, rfl⟩
    rw [findMatchingCloseBrace, closeBraceFrom_balanced hbalanced, closeBraceFrom_close,
      Option.map_some, Nat.zero_add]

/-! ## Segments -/

/-- A piece of an input. -/
inductive Segment
  | plain (c : Byte)
  | escapedDollar
  | bare (name : Bytes)
  | braced (content : Bytes)

namespace Segment

/-- What the piece replaces. -/
def text : Segment → Bytes
  | plain c => [c]
  | escapedDollar => [backslash, dollar]
  | bare name => dollar :: name
  | braced content => dollar :: openBrace :: (content ++ [closeBrace])

/-- What the piece is replaced by; only the parts of a braced expression are expanded in turn. -/
def output (environment : Environment) (next : Bytes → Bytes) : Segment → Bytes
  | plain c => [c]
  | escapedDollar => [dollar]
  | bare name => environment.getenv name
  | braced content => expandBraced environment next content

end Segment

/-- The text starts with a recognised expression. -/
def StartsExpression (text : Bytes) : Prop :=
  (∃ rest, text = backslash :: dollar :: rest) ∨
  (∃ c rest, text = dollar :: c :: rest ∧ isVariableNameChar c = true) ∨
  ∃ content rest, text = dollar :: openBrace :: (content ++ closeBrace :: rest) ∧ Balanced content

/-- The input is cut into recognised expressions, each as long as it can be, and into single
    characters where no recognised expression starts. -/
inductive Segmented : Bytes → List Segment → Prop
  | nil : Segmented [] []
  | escapedDollar {rest : Bytes} {segments : List Segment} : Segmented rest segments →
      Segmented (backslash :: dollar :: rest) (.escapedDollar :: segments)
  | bare {name rest : Bytes} {segments : List Segment} : name ≠ [] →
      (∀ c ∈ name, isVariableNameChar c = true) →
      (∀ c ∈ rest.head?, isVariableNameChar c = false) → Segmented rest segments →
      Segmented (dollar :: (name ++ rest)) (.bare name :: segments)
  | braced {content rest : Bytes} {segments : List Segment} : Balanced content →
      Segmented rest segments →
      Segmented (dollar :: openBrace :: (content ++ closeBrace :: rest))
        (.braced content :: segments)
  | plain {c : Byte} {rest : Bytes} {segments : List Segment} : ¬ StartsExpression (c :: rest) →
      Segmented rest segments → Segmented (c :: rest) (.plain c :: segments)

/-- The pieces are the input. -/
theorem Segmented.text_eq {input : Bytes} {segments : List Segment} (h : Segmented input segments) :
    segments.flatMap Segment.text = input := by
  induction h with
  | nil => rfl
  | escapedDollar _ ih => rw [List.flatMap_cons, ih]; rfl
  | bare _ _ _ _ ih => rw [List.flatMap_cons, ih]; rfl
  | braced _ _ ih => rw [List.flatMap_cons, ih]; simp [Segment.text]
  | plain _ _ ih => rw [List.flatMap_cons, ih]; rfl

/-- Every input has a cut. -/
theorem exists_segmented (input : Bytes) : ∃ segments, Segmented input segments := by
  induction hlength : input.length using Nat.strong_induction_on generalizing input with
  | _ length ih =>
  subst hlength
  cases input with
  | nil => exact ⟨[], .nil⟩
  | cons c rest =>
    by_cases hstart : StartsExpression (c :: rest)
    · obtain ⟨rest, heq⟩ | ⟨d, rest, heq, hd⟩ | ⟨content, rest, heq, hbalanced⟩ := hstart
      · rw [heq] at ih ⊢
        obtain ⟨segments, h⟩ := ih rest.length (by grind) rest rfl
        exact ⟨_, h.escapedDollar⟩
      · rw [heq] at ih ⊢
        -- the name goes on as far as it can
        obtain ⟨name, hname⟩ : ∃ name, name = rest.takeWhile isVariableNameChar := ⟨_, rfl⟩
        obtain ⟨later, hlater⟩ : ∃ later, later = rest.dropWhile isVariableNameChar := ⟨_, rfl⟩
        have hsplit : name ++ later = rest := by
          rw [hname, hlater, List.takeWhile_append_dropWhile]
        obtain ⟨segments, h⟩ := ih later.length (by simp [← hsplit]; omega) later rfl
        rw [← hsplit]
        refine ⟨_, Segmented.bare (List.cons_ne_nil d name) ?_ ?_ h⟩
        · intro e he
          obtain rfl | he := List.mem_cons.1 he
          · exact hd
          · exact List.mem_takeWhile_imp (hname ▸ he)
        · intro e he
          have hstop := List.head?_dropWhile_not isVariableNameChar rest
          rw [← hlater, he] at hstop
          simpa using hstop
      · rw [heq] at ih ⊢
        obtain ⟨segments, h⟩ := ih rest.length (by grind) rest rfl
        exact ⟨_, h.braced hbalanced⟩
    · obtain ⟨segments, h⟩ := ih rest.length (by simp) rest rfl
      exact ⟨_, h.plain hstart⟩

/-- The loop replaces each piece by its output. -/
theorem Segmented.expandLoop_eq (environment : Environment) (next : Bytes → Bytes) {input : Bytes}
    {segments : List Segment} (h : Segmented input segments) :
    expandLoop environment next 0 input = segments.flatMap (Segment.output environment next) := by
  induction h with
  | nil => rfl
  | escapedDollar _ ih =>
    rw [expandLoop_escape, ih]
    rfl
  | bare hne hname hrest _ ih =>
    rw [expandLoop_variable _ _ hne hname hrest, ih]
    rfl
  | @braced content rest segments hbalanced _ ih =>
    have hclose : findMatchingCloseBrace (content ++ closeBrace :: rest) = some content.length :=
      findMatchingCloseBrace_eq_some_iff.2 ⟨content, rest, rfl, hbalanced, rfl⟩
    rw [expandLoop_braced _ _ rest hclose, ih]
    rfl
  | @plain c rest segments hstart _ ih =>
    have hchar : expandLoop environment next 0 (c :: rest)
        = c :: expandLoop environment next 0 rest := by
      apply expandLoop_char
      · rintro ⟨rfl, hhead⟩
        obtain ⟨rest, rfl⟩ := List.head?_eq_some_iff.1 hhead
        exact hstart (.inl ⟨rest, rfl⟩)
      · rintro rfl d hd
        obtain ⟨rest, rfl⟩ := List.head?_eq_some_iff.1 hd
        by_contra hname
        exact hstart (.inr (.inl ⟨d, rest, rfl, by simpa using hname⟩))
      · rintro rfl hhead
        obtain ⟨rest, rfl⟩ := List.head?_eq_some_iff.1 hhead
        by_contra hfound
        obtain ⟨k, hk⟩ := Option.ne_none_iff_exists'.1 hfound
        obtain ⟨content, tail, rfl, hbalanced, -⟩ := findMatchingCloseBrace_eq_some_iff.1 hk
        exact hstart (.inr (.inr ⟨content, tail, rfl, hbalanced⟩))
    rw [hchar, ih]
    rfl

/-- A printed expression expands to what it stands for, with its values and words taken as they
    are; `getenv` cuts a name at a NUL, which matters only where a literal or a value has one. Any
    input is expanded piece by piece, and what is outside recognised expressions stays. -/
theorem expandEnvironmentExpression_grammar (environment : Environment) :
    (∀ e : Expression, e.WellFormed → e.nesting ≤ kMaxExpressionRecursionDepth →
      expandEnvironmentExpression environment e.print = e.eval environment.getenv ∧
      ((∀ name, (0 : Byte) ∉ environment name) → (0 : Byte) ∉ e.print →
        expandEnvironmentExpression environment e.print = e.eval environment)) ∧
    ∀ input, (∃ segments, Segmented input segments) ∧
      ∀ segments, Segmented input segments →
        segments.flatMap Segment.text = input ∧
        expandEnvironmentExpression environment input
          = segments.flatMap (Segment.output environment
              fun part => expandExpressionImpl environment part 1) := by
  refine ⟨?_, fun input => ⟨exists_segmented input, ?_⟩⟩
  · intro e hwell hnesting
    have hprint := expandLevels_print environment e hwell kMaxExpressionRecursionDepth hnesting
    refine ⟨hprint, fun hvalues hnul => ?_⟩
    exact Eq.trans hprint (e.eval_getenv environment hvalues hnul).1
  · intro segments h
    refine ⟨h.text_eq, ?_⟩
    rw [expandEnvironmentExpression, expandExpressionImpl_eq, if_neg (by decide)]
    exact h.expandLoop_eq environment _

/-- `${A$B:-x$B}` with only `B` set. -/
theorem expandEnvironmentExpression_grammar_word :
    let environment : Environment := fun name => if name = ascii "B" then ascii "$A" else []
    let e : Expression := .orDefault (.literal (ascii "A") (.bare (ascii "B") .done))
      (.literal (ascii "x") (.bare (ascii "B") .done)) .done
    expandEnvironmentExpression environment e.print = ascii "x$A" ∧
      expandEnvironmentExpression environment (ascii "$") = ascii "$" := by
  intro environment e
  have hwell : e.WellFormed := by decide +kernel
  have hsegmented : Segmented (ascii "$") [.plain dollar] :=
    .plain (by rintro (⟨rest, h⟩ | ⟨c, rest, h, -⟩ | ⟨content, rest, h, -⟩) <;> cases h) .nil
  have hvalues : ∀ name, (0 : Byte) ∉ environment name := by
    intro name
    simp only [environment]
    split_ifs <;> decide
  obtain ⟨hprint, hinput⟩ := expandEnvironmentExpression_grammar environment
  have hexact := (hprint e hwell (by decide)).2 hvalues (by decide +kernel)
  exact ⟨hexact.trans (by decide +kernel), ((hinput _).2 _ hsegmented).2⟩

end LibAtapp.Conf
