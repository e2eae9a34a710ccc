import Mathlib.Data.List.Basic

set_option autoImplicit false

/-! # References that are kept on both sides

Objects `h` point to at most one owner, `target h`, and every owner keeps a list of the objects
that point to it, `listed e`. This file has the relation that says the two sides agree, and one
rule for each way the two sides change together: an object leaves its owner, an object joins an
owner, an owner lets all its objects go one after the other. -/

namespace LibAtapp.BackRef

variable {H E : Type} {target target' : H → Option E} {listed listed' : E → List H}

/-- An object points to an owner exactly if the owner lists it. -/
def Linked (target : H → Option E) (listed : E → List H) : Prop :=
  ∀ h e, target h = some e ↔ h ∈ listed e

theorem Linked.unique (hl : Linked target listed) {h : H} {e e' : E} (he : h ∈ listed e)
    (he' : h ∈ listed e') : e = e' := by
  have htarget := (hl h e).2 he
  rw [(hl h e').2 he'] at htarget
  exact (Option.some.inj htarget).symm

theorem Linked.not_listed (hl : Linked target listed) {h : H} (hnone : target h = none) (e : E) :
    h ∉ listed e := by
  intro he
  rw [(hl h e).2 he] at hnone
  exact Option.some_ne_none e hnone

/-- An object leaves the only owner it can have. -/
theorem Linked.unlink (hl : Linked target listed) {h : H} {e : E}
    (howner : ∀ e', target h = some e' → e' = e)
    (hself : target' h = none) (hother : ∀ h', h' ≠ h → target' h' = target h')
    (hlisted : ∀ h' e', h' ∈ listed' e' ↔ h' ∈ listed e' ∧ ¬ (h' = h ∧ e' = e)) :
    Linked target' listed' := by
  intro h' e'
  rw [hlisted, ← hl h' e']
  by_cases hh : h' = h
  · subst hh
    rw [hself]
    constructor
    · intro hnone
      exact absurd hnone.symm (Option.some_ne_none e')
    · rintro ⟨htarget, hne⟩
      exact absurd ⟨rfl, howner e' htarget⟩ hne
  · rw [hother h' hh]
    exact ⟨fun htarget => ⟨htarget, fun heq => hh heq.1⟩, fun htarget => htarget.1⟩

/-- An object without an owner joins one. -/
theorem Linked.link (hl : Linked target listed) {h : H} {e : E} (hfree : target h = none)
    (hself : target' h = some e) (hother : ∀ h', h' ≠ h → target' h' = target h')
    (hlisted : ∀ h' e', h' ∈ listed' e' ↔ h' ∈ listed e' ∨ (h' = h ∧ e' = e)) :
    Linked target' listed' := by
  intro h' e'
  rw [hlisted, ← hl h' e']
  by_cases hh : h' = h
  · subst hh
    rw [hself, hfree]
    constructor
    · intro heq
      exact Or.inr ⟨rfl, (Option.some.inj heq).symm⟩
    · rintro (hnone | ⟨-, rfl⟩)
      · exact absurd hnone.symm (Option.some_ne_none e')
      · rfl
  · rw [hother h' hh]
    exact ⟨Or.inl, fun htarget => htarget.resolve_right fun heq => hh heq.1⟩

/-- The two sides agree, apart from the objects of `rest`, which the owner `e` has dropped from
    its list while they still point to it. -/
def LinkedBut (e : E) (rest : List H) (target : H → Option E) (listed : E → List H) : Prop :=
  ∀ h e', h ∈ listed e' ↔ target h = some e' ∧ ¬ (e' = e ∧ h ∈ rest)

theorem linkedBut_nil {e : E} : LinkedBut e [] target listed ↔ Linked target listed := by
  constructor
  · intro hl h e'
    rw [hl h e']
    simp
  · intro hl h e'
    rw [← hl h e']
    simp

/-- The owner takes its whole list away. -/
theorem Linked.drop_all (hl : Linked target listed) {e : E} {rest : List H}
    (hrest : ∀ h, h ∈ rest ↔ h ∈ listed e) (hself : listed' e = [])
    (hother : ∀ e', e' ≠ e → listed' e' = listed e') : LinkedBut e rest target listed' := by
  intro h e'
  by_cases he : e' = e
  · subst he
    rw [hself, hrest, ← hl h e']
    simp
  · rw [hother e' he, ← hl h e']
    simp [he]

/-- One of the objects the owner has dropped loses its pointer. -/
theorem LinkedBut.clear {e : E} {h : H} {rest : List H}
    (hl : LinkedBut e (h :: rest) target listed) (howner : ∀ e', target h = some e' → e' = e)
    (hself : target' h = none) (hother : ∀ h', h' ≠ h → target' h' = target h')
    (hlisted : ∀ h' e', h' ∈ listed' e' ↔ h' ∈ listed e') :
    LinkedBut e rest target' listed' := by
  intro h' e'
  rw [hlisted, hl h' e']
  by_cases hh : h' = h
  · subst hh
    rw [hself]
    constructor
    · rintro ⟨htarget, hne⟩
      exact absurd ⟨howner e' htarget, List.mem_cons_self⟩ hne
    · rintro ⟨hnone, -⟩
      exact absurd hnone.symm (Option.some_ne_none e')
  · rw [hother h' hh, List.mem_cons]
    simp [hh]

/-- An object that does not point to the owner was not one of those it dropped. -/
theorem LinkedBut.skip {e : E} {h : H} {rest : List H}
    (hl : LinkedBut e (h :: rest) target listed) (hne : target h ≠ some e) :
    LinkedBut e rest target listed := by
  intro h' e'
  rw [hl h' e', List.mem_cons]
  constructor
  · rintro ⟨htarget, hnot⟩
    exact ⟨htarget, fun hrest => hnot ⟨hrest.1, Or.inr hrest.2⟩⟩
  · rintro ⟨htarget, hnot⟩
    refine ⟨htarget, ?_⟩
    rintro ⟨rfl, rfl | hrest⟩
    · exact hne htarget
    · exact hnot ⟨rfl, hrest⟩

end LibAtapp.BackRef
