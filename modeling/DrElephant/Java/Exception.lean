import Mathlib.Data.List.Perm.Basic
import DrElephant.Library.MachineInt

open machine

namespace java.lang

/-- What a method can throw, as far as a caller can tell the cases apart. -/
inductive JavaException
  | nullPointer
  | indexOutOfBounds
  | numberFormat
  | illegalArgument (message : String)
  | io (message : String)
  | authentication (message : String)
  | runtime (message : String)
  | other (name : String)
  deriving DecidableEq, Repr

variable {ε α β : Type}

/-- A computation returns when its parts do, one after the other. -/
theorem bind_eq_ok_iff {x : Except ε α} {f : α → Except ε β} {b : β} :
    (x >>= f) = .ok b ↔ ∃ a, x = .ok a ∧ f a = .ok b := by
  cases x <;> simp [bind, Except.bind]

@[simp] theorem pure_eq_ok_iff {a b : α} : (pure a : Except ε α) = .ok b ↔ a = b := by
  simp [pure, Except.pure]

/-- A loop whose every round returns. -/
theorem mapM_eq_ok {f : α → Except ε β} {g : α → β} {l : List α} (h : ∀ a ∈ l, f a = .ok (g a)) :
    l.mapM f = .ok (l.map g) := by
  induction l with
  | nil => rfl
  | cons a l ih =>
    obtain ⟨ha, hl⟩ := List.forall_mem_cons.mp h
    simp [List.mapM_cons, ha, ih hl, bind, Except.bind]

/-- What a loop returns belongs round by round to what it went over. -/
theorem mapM_eq_ok_iff {f : α → Except ε β} {l : List α} {r : List β} :
    l.mapM f = .ok r ↔ List.Forall₂ (fun a b => f a = .ok b) l r := by
  induction l generalizing r with
  | nil =>
    rw [List.mapM_nil, pure_eq_ok_iff, List.forall₂_nil_left_iff]
    exact eq_comm
  | cons a l ih =>
    simp only [List.mapM_cons, bind_eq_ok_iff, pure_eq_ok_iff, List.forall₂_cons_left_iff, ih]
    constructor
    · rintro ⟨b, hb, r', hr', rfl⟩
      exact ⟨b, r', hb, hr', rfl⟩
    · rintro ⟨b, r', hb, hr', rfl⟩
      exact ⟨b, hb, r', hr', rfl⟩

/-- When a loop returns every round of it has returned. -/
theorem exists_ok_of_mapM {f : α → Except ε β} {l : List α} {r : List β} (hr : l.mapM f = .ok r) :
    ∀ a ∈ l, ∃ b ∈ r, f a = .ok b := by
  have h := mapM_eq_ok_iff.mp hr
  clear hr
  induction h with
  | nil => simp
  | cons hhead _ ih =>
    refine List.forall_mem_cons.mpr ⟨⟨_, List.mem_cons_self, hhead⟩, fun a ha => ?_⟩
    obtain ⟨b, hb, hab⟩ := ih a ha
    exact ⟨b, List.mem_cons_of_mem _ hb, hab⟩

/-- A loop whose rounds return something of a kind. -/
theorem mapM_ok_of_forall {f : α → Except ε β} {s : α → β → Prop} {l : List α}
    (h : ∀ a ∈ l, ∃ b, f a = .ok b ∧ s a b) : ∃ r, l.mapM f = .ok r ∧ List.Forall₂ s l r := by
  induction l with
  | nil => exact ⟨[], rfl, .nil⟩
  | cons a l ih =>
    obtain ⟨⟨b, hb, hs⟩, hl⟩ := List.forall_mem_cons.mp h
    obtain ⟨r, hr, hrest⟩ := ih hl
    exact ⟨b :: r, by simp [List.mapM_cons, hb, hr, bind, Except.bind, pure, Except.pure], .cons hs hrest⟩

/-- A loop over the same elements in another order returns the same results in
another order. -/
theorem mapM_perm {f : α → Except ε β} {l l' : List α} {r : List β} (h : l.Perm l')
    (hr : l.mapM f = .ok r) : ∃ r', l'.mapM f = .ok r' ∧ r.Perm r' := by
  obtain ⟨r', hr', hperm⟩ := List.perm_comp_forall₂ h.symm (mapM_eq_ok_iff.mp hr)
  exact ⟨r', mapM_eq_ok_iff.mpr hr', hperm.symm⟩

/-- Loops over related elements return related results. -/
theorem mapM_related {α' β' : Type} {r : α → α' → Prop} {s : β → β' → Prop} {f : α → Except ε β}
    {f' : α' → Except ε β'} (hf : ∀ a a' b, r a a' → f a = .ok b → ∃ b', f' a' = .ok b' ∧ s b b')
    {l : List α} {l' : List α'} (h : List.Forall₂ r l l') {result : List β}
    (hresult : l.mapM f = .ok result) :
    ∃ result', l'.mapM f' = .ok result' ∧ List.Forall₂ s result result' := by
  induction h generalizing result with
  | nil =>
    rw [List.mapM_nil, pure_eq_ok_iff] at hresult
    exact ⟨[], rfl, hresult ▸ .nil⟩
  | cons hhead _ ih =>
    simp only [List.mapM_cons, bind_eq_ok_iff, pure_eq_ok_iff] at hresult ⊢
    obtain ⟨b, hb, rest, hrest, rfl⟩ := hresult
    obtain ⟨b', hb', hs⟩ := hf _ _ _ hhead hb
    obtain ⟨rest', hrest', hrests⟩ := ih hrest
    exact ⟨b' :: rest', ⟨b', hb', rest', hrest', rfl⟩, .cons hs hrests⟩

/-- A loop with a state each round of which returns, whatever the state. -/
theorem exists_foldlM_eq_ok {f : β → α → Except ε β} {l : List α} (h : ∀ a ∈ l, ∀ b, ∃ b', f b a = .ok b')
    (b : β) : ∃ r, l.foldlM f b = .ok r := by
  induction l generalizing b with
  | nil => exact ⟨b, rfl⟩
  | cons a l ih =>
    obtain ⟨ha, hl⟩ := List.forall_mem_cons.mp h
    obtain ⟨b', hb'⟩ := ha b
    rw [List.foldlM_cons, hb']
    exact ih hl b'

/-- When a loop with a state returns every round of it has returned. -/
theorem exists_ok_of_foldlM {f : β → α → Except ε β} {l : List α} {b r : β} (hr : l.foldlM f b = .ok r) :
    ∀ a ∈ l, ∃ b b', f b a = .ok b' := by
  induction l generalizing b with
  | nil => simp
  | cons a l ih =>
    rw [List.foldlM_cons, bind_eq_ok_iff] at hr
    obtain ⟨next, hnext, hrest⟩ := hr
    exact List.forall_mem_cons.mpr ⟨⟨b, next, hnext⟩, ih hrest⟩

/-- A loop that takes up what each round returns goes over the elements first. -/
theorem foldlM_eq_map_mapM {γ : Type} {f : α → Except ε γ} {g : β → γ → β} {step : β → α → Except ε β}
    (h : ∀ b a, step b a = (f a).map (g b)) (l : List α) (b : β) :
    l.foldlM step b = (l.mapM f).map fun found => found.foldl g b := by
  induction l generalizing b with
  | nil => rfl
  | cons a l ih =>
    rw [List.foldlM_cons, List.mapM_cons, h]
    cases f a with
    | error e => rfl
    | ok c =>
      show l.foldlM step (g b c) = _
      rw [ih]
      cases l.mapM f <;> rfl

/-- Whatever a computation throws satisfies a property. -/
def OnlyThrows (property : ε → Prop) (x : Except ε α) : Prop := ∀ e, x = .error e → property e

section onlyThrows

variable {property : ε → Prop}

theorem OnlyThrows.ok {a : α} : OnlyThrows property (.ok a) := by
  intro e he
  cases he

theorem OnlyThrows.error {e : ε} (h : property e) : OnlyThrows property (.error e : Except ε α) := by
  intro e' he'
  cases he'
  exact h

theorem OnlyThrows.bind {x : Except ε α} {f : α → Except ε β} (hx : OnlyThrows property x)
    (hf : ∀ a, x = .ok a → OnlyThrows property (f a)) : OnlyThrows property (x >>= f) := by
  intro e he
  cases x with
  | error e' =>
    cases he
    exact hx e rfl
  | ok a => exact hf a rfl e he

theorem OnlyThrows.mapM {f : α → Except ε β} {l : List α} (h : ∀ a ∈ l, OnlyThrows property (f a)) :
    OnlyThrows property (l.mapM f) := by
  induction l with
  | nil => exact OnlyThrows.ok
  | cons a l ih =>
    obtain ⟨ha, hl⟩ := List.forall_mem_cons.mp h
    rw [List.mapM_cons]
    exact ha.bind fun b _ => (ih hl).bind fun rest _ => OnlyThrows.ok

end onlyThrows

/-- A reference that is used at once. -/
def dereference (reference : Option α) : Except JavaException α :=
  match reference with
  | some value => .ok value
  | none => .error .nullPointer

@[simp] theorem dereference_some (a : α) : dereference (some a) = .ok a := rfl

theorem dereference_eq_ok_iff {reference : Option α} {a : α} :
    dereference reference = .ok a ↔ reference = some a := by
  cases reference <;> simp [dereference]

/-- The division of longs; only the least long divided by -1 wraps around. -/
def divideLong (a b : Int) : Except JavaException Int :=
  if b = 0 then .error (.other "ArithmeticException") else .ok (wrap64 (a.tdiv b))

end java.lang
