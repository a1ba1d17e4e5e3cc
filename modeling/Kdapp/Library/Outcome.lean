import Mathlib.Logic.Function.Basic
import Mathlib.Tactic.Common

/-! Peeling apart computations that may fail, checks in sequence, and finite maps and sets changed
key by key. -/

namespace Outcome

theorem bind_ok {ε α β : Type} {x : Except ε α} {f : α → Except ε β} {b : β}
    (h : (x >>= f) = .ok b) : ∃ a, x = .ok a ∧ f a = .ok b := by
  cases x with
  | error e => cases h
  | ok a => exact ⟨a, rfl, h⟩

theorem run_bind_ok {σ ε α β : Type} {x : StateT σ (Except ε) α} {f : α → StateT σ (Except ε) β}
    {s : σ} {p : β × σ} (h : (x >>= f).run s = .ok p) :
    ∃ a s', x.run s = .ok (a, s') ∧ (f a).run s' = .ok p := by
  obtain ⟨⟨a, s'⟩, hx, hf⟩ := bind_ok h
  exact ⟨a, s', hx, hf⟩

theorem run_bind_of_ok {σ ε α β : Type} {x : StateT σ (Except ε) α} {a : α} {s s' : σ}
    (f : α → StateT σ (Except ε) β) (h : x.run s = .ok (a, s')) :
    (x >>= f).run s = (f a).run s' := by
  rw [StateT.run_bind, h]
  rfl

theorem run_lift_ok {σ ε α : Type} {x : Except ε α} {a : α} {s s' : σ}
    (h : (StateT.lift x : StateT σ (Except ε) α).run s = .ok (a, s')) : x = .ok a ∧ s' = s := by
  obtain ⟨b, hx, hr⟩ := bind_ok h
  cases hr
  exact ⟨hx, rfl⟩

theorem run_lift_of_ok {σ ε α : Type} {x : Except ε α} {a : α} (s : σ) (h : x = .ok a) :
    (StateT.lift x : StateT σ (Except ε) α).run s = .ok (a, s) := by
  rw [h]
  rfl

theorem bind_of_ok {ε α β : Type} {x : Except ε α} {a : α} (f : α → Except ε β)
    (h : x = .ok a) : (x >>= f) = f a := by
  rw [h]
  rfl

theorem bind_isOk_iff {ε α β : Type} {x : Except ε α} {f : α → Except ε β}
    (hf : ∀ a, ∃ b, f a = .ok b) : (∃ b, (x >>= f) = .ok b) ↔ ∃ a, x = .ok a := by
  constructor
  · rintro ⟨b, h⟩
    obtain ⟨a, ha, -⟩ := bind_ok h
    exact ⟨a, ha⟩
  · rintro ⟨a, ha⟩
    rw [bind_of_ok f ha]
    exact hf a

theorem mapM_isOk {ε α β : Type} {f : α → Except ε β} {l : List α}
    (h : ∀ a ∈ l, ∃ b, f a = .ok b) : ∃ bs, l.mapM f = .ok bs := by
  induction l with
  | nil => exact ⟨[], rfl⟩
  | cons a l ih =>
    obtain ⟨b, hb⟩ := h a List.mem_cons_self
    obtain ⟨bs, hbs⟩ := ih fun a' ha' => h a' (List.mem_cons_of_mem a ha')
    refine ⟨b :: bs, ?_⟩
    rw [List.mapM_cons, bind_of_ok _ hb, bind_of_ok _ hbs]
    rfl

theorem ok_ne_error {ε α : Type} (a : α) (e : ε) : (Except.ok a : Except ε α) ≠ .error e := nofun

theorem bind_ne_error {ε α β : Type} {x : Except ε α} {f : α → Except ε β} {e : ε}
    (hx : x ≠ .error e) (hf : ∀ a, x = .ok a → f a ≠ .error e) : (x >>= f) ≠ .error e := by
  cases x with
  | error e' =>
    intro h
    exact hx (congrArg Except.error (Except.error.inj h))
  | ok a => exact hf a rfl

theorem exists_of_isOk {ε α : Type} {x : Except ε α} (h : x.isOk = true) : ∃ a, x = .ok a := by
  cases x with
  | error e => cases h
  | ok a => exact ⟨a, rfl⟩

theorem ok_of_toOption {ε α : Type} {x : Except ε α} {a : α} (h : x.toOption = some a) :
    x = .ok a := by
  cases x with
  | error e => cases h
  | ok b => exact congrArg Except.ok (Option.some.inj h)

theorem exists_of_map {ε α β : Type} {x : Except ε α} {f : α → β} {b : β}
    (h : x.toOption.map f = some b) : ∃ a, x = .ok a ∧ f a = b := by
  obtain ⟨a, ha, hread⟩ := Option.map_eq_some_iff.mp h
  exact ⟨a, ok_of_toOption ha, hread⟩

section Blind
variable {σ ε α β : Type}

def Blind (x : StateT σ (Except ε) α) : Prop :=
  ∀ ⦃s t a b s' t'⦄, x.run s = .ok (a, s') → x.run t = .ok (b, t') → a = b

theorem blind_pure (a : α) : Blind (pure a : StateT σ (Except ε) α) := by
  intro s t b c s' t' hs ht
  cases hs
  cases ht
  rfl

theorem blind_throw (e : ε) : Blind (throw e : StateT σ (Except ε) α) := by
  intro s t b c s' t' hs
  cases hs

theorem blind_unit (x : StateT σ (Except ε) Unit) : Blind x := fun _ _ _ _ _ _ _ _ => rfl

theorem Blind.bind {x : StateT σ (Except ε) α} {f : α → StateT σ (Except ε) β} (hx : Blind x)
    (hf : ∀ a, Blind (f a)) : Blind (x >>= f) := by
  intro s t b c s' t' hs ht
  obtain ⟨a, s₁, hxs, hfs⟩ := run_bind_ok hs
  obtain ⟨a', t₁, hxt, hft⟩ := run_bind_ok ht
  obtain rfl := hx hxs hxt
  exact hf a hfs hft

end Blind

section Writes
variable {σ ε : Type}

inductive Writes (W : (σ → σ) → Prop) : ∀ {α : Type}, StateT σ (Except ε) α → Prop
  | pure {α : Type} (a : α) : Writes W (pure a)
  | throw {α : Type} (e : ε) : Writes W (throw e : StateT σ (Except ε) α)
  | modify {f : σ → σ} (hf : W f) : Writes W (modify f)
  | bind {α β : Type} {x : StateT σ (Except ε) α} {f : α → StateT σ (Except ε) β}
    (hx : Writes W x) (hf : ∀ a, Writes W (f a)) : Writes W (x >>= f)

variable {W : (σ → σ) → Prop} {α : Type} {x y : StateT σ (Except ε) α}

theorem Writes.ite {p : Prop} [Decidable p] (hx : Writes W x) (hy : Writes W y) :
    Writes W (if p then x else y) := by
  split
  · exact hx
  · exact hy

theorem Writes.blind (h : Writes W x) : Blind x := by
  induction h with
  | pure a => exact blind_pure a
  | throw e => exact blind_throw e
  | modify hf => exact blind_unit _
  | bind hx hf ihx ihf => exact ihx.bind ihf

theorem Writes.related {E : σ → σ → Prop} (hE : ∀ f, W f → ∀ s t, E s t → E (f s) (f t))
    (h : Writes W x) {s t s' : σ} {a : α} (hst : E s t) (hs : x.run s = .ok (a, s')) :
    ∃ t', x.run t = .ok (a, t') ∧ E s' t' := by
  induction h generalizing s t s' with
  | pure a =>
    cases hs
    exact ⟨t, rfl, hst⟩
  | throw e => cases hs
  | @modify f hf =>
    cases hs
    exact ⟨f t, rfl, hE f hf s t hst⟩
  | bind hx hf ihx ihf =>
    obtain ⟨b, s₁, hxs, hfs⟩ := run_bind_ok hs
    obtain ⟨t₁, hxt, hst₁⟩ := ihx hst hxs
    obtain ⟨t', hft, hst'⟩ := ihf b hst₁ hfs
    exact ⟨t', (run_bind_of_ok _ hxt).trans hft, hst'⟩

end Writes

end Outcome

/-- What comes out of checks in sequence: an error and the state as it was where `q` fails, and
`good` where it holds. -/
def Checked {S E R : Type} (q : Prop) (s : S) (good out : S × Except E R) : Prop :=
  (¬ q ∧ ∃ e, out = (s, .error e)) ∨ q ∧ out = good

namespace Checked
variable {S E R : Type} {p q : Prop} {s : S} {good rest : S × Except E R} {e : E}

theorem passed (hq : q) : Checked q s good good := .inr ⟨hq, rfl⟩

theorem refused (hq : ¬ q) : Checked q s good (s, .error e) := .inl ⟨hq, e, rfl⟩

theorem check [Decidable p] (hp : p → ¬ q) (hrest : ¬ p → Checked q s good rest) :
    Checked q s good (if p then (s, .error e) else rest) := by
  split
  · rename_i h
    exact refused (hp h)
  · rename_i h
    exact hrest h

end Checked

namespace FiniteMap
open Std (ExtTreeMap TransOrd LawfulEqOrd ReflCmp)

variable {κ ν : Type} [Ord κ] [TransOrd κ] [LawfulEqOrd κ]

theorem getElem?_insert_of_ne {m : ExtTreeMap κ ν} {k a : κ} (h : k ≠ a) (v : ν) :
    (m.insert k v)[a]? = m[a]? := by
  rw [ExtTreeMap.getElem?_insert, if_neg fun he => h (LawfulEqOrd.eq_of_compare he)]

theorem getElem?_erase_of_ne {m : ExtTreeMap κ ν} {k a : κ} (h : k ≠ a) :
    (m.erase k)[a]? = m[a]? := by
  rw [ExtTreeMap.getElem?_erase, if_neg fun he => h (LawfulEqOrd.eq_of_compare he)]

theorem getElem?_eraseAll [DecidableEq κ] (ks : List κ) (m : ExtTreeMap κ ν) (k : κ) :
    (ks.foldl (·.erase ·) m)[k]? = if k ∈ ks then none else m[k]? := by
  induction ks generalizing m with
  | nil => simp only [List.foldl_nil, List.not_mem_nil, if_false]
  | cons a ks ih =>
    rw [List.foldl_cons, ih]
    grind

theorem erase_insert_of_fresh {m : ExtTreeMap κ ν} {k : κ} (h : m[k]? = none) (v : ν) :
    (m.insert k v).erase k = m := by
  apply ExtTreeMap.ext_getElem?
  grind

theorem insert_insert (m : ExtTreeMap κ ν) (k : κ) (v w : ν) :
    (m.insert k v).insert k w = m.insert k w := by
  apply ExtTreeMap.ext_getElem?
  grind

theorem insert_of_getElem? {m : ExtTreeMap κ ν} {k : κ} {v : ν} (h : m[k]? = some v) :
    m.insert k v = m := by
  apply ExtTreeMap.ext_getElem?
  grind

theorem insert_erase_of_some {m : ExtTreeMap κ ν} {k : κ} {v : ν} (h : m[k]? = some v) :
    (m.erase k).insert k v = m := by
  apply ExtTreeMap.ext_getElem?
  grind

omit [LawfulEqOrd κ] in
theorem exists_of_mem {m : ExtTreeMap κ ν} {k : κ} (h : k ∈ m) : ∃ v, m[k]? = some v :=
  ⟨m[k], ExtTreeMap.getElem?_eq_some_getElem h⟩

theorem size_congr {μ : Type} {m : ExtTreeMap κ ν} {m' : ExtTreeMap κ μ}
    (h : ∀ k, k ∈ m ↔ k ∈ m') : m.size = m'.size := by
  have hperm : m.keys.Perm m'.keys := by
    rw [List.perm_ext_iff_of_nodup ExtTreeMap.nodup_keys ExtTreeMap.nodup_keys]
    intro k
    rw [ExtTreeMap.mem_keys, ExtTreeMap.mem_keys]
    exact h k
  rw [← ExtTreeMap.length_keys, ← ExtTreeMap.length_keys, hperm.length_eq]

omit [LawfulEqOrd κ] in
theorem mem_of_some {m : ExtTreeMap κ ν} {k : κ} {v : ν} (h : m[k]? = some v) : k ∈ m := by
  rw [ExtTreeMap.mem_iff_isSome_getElem?, h]
  rfl

theorem mem_insert_of_some {m : ExtTreeMap κ ν} {k : κ} {v : ν} (h : m[k]? = some v) (w : ν)
    (a : κ) : a ∈ m.insert k w ↔ a ∈ m := by
  grind

theorem erase_of_none {m : ExtTreeMap κ ν} {k : κ} (h : m[k]? = none) : m.erase k = m := by
  apply ExtTreeMap.ext_getElem?
  grind

theorem modify_of_none {m : ExtTreeMap κ ν} {k : κ} (h : m[k]? = none) (f : ν → ν) :
    m.modify k f = m := by
  apply ExtTreeMap.ext_getElem?
  intro a
  rw [ExtTreeMap.getElem?_modify]
  by_cases ha : k = a
  · subst ha
    rw [if_pos ReflCmp.compare_self, h, Option.map_none]
  · rw [if_neg fun he => ha (LawfulEqOrd.eq_of_compare he)]

theorem modify_of_some {m : ExtTreeMap κ ν} {k : κ} {v : ν} (h : m[k]? = some v) (f : ν → ν) :
    m.modify k f = m.insert k (f v) := by
  apply ExtTreeMap.ext_getElem?
  intro a
  rw [ExtTreeMap.getElem?_modify, ExtTreeMap.getElem?_insert]
  by_cases ha : k = a
  · subst ha
    rw [if_pos ReflCmp.compare_self, if_pos ReflCmp.compare_self, h, Option.map_some]
  · have hne : compare k a ≠ .eq := fun he => ha (LawfulEqOrd.eq_of_compare he)
    rw [if_neg hne, if_neg hne]

/-- What a map says of each key, read through `f`. -/
def view {μ : Type} (f : ν → Option μ) (m : ExtTreeMap κ ν) : κ → Option μ :=
  fun k => m[k]?.bind f

section View
variable {μ : Type} {f : ν → Option μ} {m : ExtTreeMap κ ν} {k : κ}

omit [LawfulEqOrd κ] in
theorem view_of_some {v : ν} (h : m[k]? = some v) : view f m k = f v := by
  rw [view, h, Option.bind_some]

omit [LawfulEqOrd κ] in
theorem view_of_none (h : m[k]? = none) : view f m k = none := by
  rw [view, h, Option.bind_none]

variable [DecidableEq κ]

theorem view_insert (v : ν) : view f (m.insert k v) = Function.update (view f m) k (f v) := by
  funext a
  by_cases ha : a = k
  · subst ha
    rw [Function.update_self, view_of_some ExtTreeMap.getElem?_insert_self]
  · rw [Function.update_of_ne ha, view, view, getElem?_insert_of_ne (Ne.symm ha)]

theorem view_erase : view f (m.erase k) = Function.update (view f m) k none := by
  funext a
  by_cases ha : a = k
  · subst ha
    rw [Function.update_self, view_of_none ExtTreeMap.getElem?_erase_self]
  · rw [Function.update_of_ne ha, view, view, getElem?_erase_of_ne (Ne.symm ha)]

theorem view_insert_same {v : ν} (h : f v = view f m k) : view f (m.insert k v) = view f m := by
  rw [view_insert, h, Function.update_eq_self]

theorem view_erase_same (h : view f m k = none) : view f (m.erase k) = view f m := by
  rw [view_erase, ← h, Function.update_eq_self]

end View

end FiniteMap

namespace FiniteSet
open Std (ExtTreeSet TransOrd LawfulEqOrd)

variable {κ : Type} [Ord κ] [TransOrd κ] [LawfulEqOrd κ] {s : ExtTreeSet κ} {k : κ}

theorem mem_insert (s : ExtTreeSet κ) (k a : κ) : a ∈ s.insert k ↔ k = a ∨ a ∈ s := by
  rw [ExtTreeSet.mem_insert, Std.compare_eq_iff_eq]

theorem mem_erase (s : ExtTreeSet κ) (k a : κ) : a ∈ s.erase k ↔ k ≠ a ∧ a ∈ s := by
  rw [ExtTreeSet.mem_erase, ne_eq, Std.compare_eq_iff_eq]

theorem insert_of_mem (h : k ∈ s) : s.insert k = s := by
  apply ExtTreeSet.ext_mem
  intro a
  rw [mem_insert]
  constructor
  · rintro (rfl | ha)
    · exact h
    · exact ha
  · intro ha
    exact .inr ha

theorem erase_insert_of_not_mem (h : k ∉ s) : (s.insert k).erase k = s := by
  apply ExtTreeSet.ext_mem
  intro a
  rw [mem_erase, mem_insert]
  constructor
  · rintro ⟨hne, heq | ha⟩
    · exact absurd heq hne
    · exact ha
  · intro ha
    refine ⟨?_, .inr ha⟩
    rintro rfl
    exact h ha

theorem insert_erase_of_mem (h : k ∈ s) : (s.erase k).insert k = s := by
  apply ExtTreeSet.ext_mem
  intro a
  rw [mem_insert, mem_erase]
  constructor
  · rintro (rfl | ⟨-, ha⟩)
    · exact h
    · exact ha
  · intro ha
    by_cases hk : k = a
    · exact .inl hk
    · exact .inr ⟨hk, ha⟩

end FiniteSet
