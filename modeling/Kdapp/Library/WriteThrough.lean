import Kdapp.Library.Borsh
import Kdapp.Library.Outcome
import Mathlib.Tactic.Common

/-! A map in memory that writes every change through to a tree of byte strings. -/

namespace WriteThrough
open Borsh
open Std (ExtTreeMap TransOrd LawfulEqOrd ReflCmp)

abbrev Tree := ExtTreeMap Bytes Bytes

variable {κ ν : Type} [Ord κ] [TransOrd κ] [LawfulEqOrd κ]

structure Mirrors (key : κ → Bytes) (value : ν → Option Bytes) (m : ExtTreeMap κ ν) (t : Tree) :
    Prop where
  entry : ∀ k : κ, t[key k]? = (m[k]?).bind value
  written : ∀ (k : κ) (v : ν), m[k]? = some v → (value v).isSome
  only : ∀ bs ∈ t, ∃ k, key k = bs

def decodeEntry (decodeKey : Bytes → Option κ) (decode : Bytes → Option ν) (p : Bytes × Bytes) :
    Option (κ × ν) := do
  let k ← decodeKey p.1
  let v ← decode p.2
  some (k, v)

def load (decodeKey : Bytes → Option κ) (decode : Bytes → Option ν) (t : Tree) : ExtTreeMap κ ν :=
  ExtTreeMap.ofList (t.toList.filterMap (decodeEntry decodeKey decode))

namespace Mirrors
variable {key : κ → Bytes} {value : ν → Option Bytes} {m m' : ExtTreeMap κ ν} {t t' : Tree}

omit [LawfulEqOrd κ] in
theorem empty : Mirrors key value (∅ : ExtTreeMap κ ν) ∅ where
  entry k := by
    rw [ExtTreeMap.getElem?_empty, ExtTreeMap.getElem?_empty]
    rfl
  written k v h := by
    rw [ExtTreeMap.getElem?_empty] at h
    cases h
  only bs h := absurd h ExtTreeMap.not_mem_empty

omit [LawfulEqOrd κ] in
theorem unique (h : Mirrors key value m t) (h' : Mirrors key value m t') : t = t' := by
  apply ExtTreeMap.ext_getElem?
  intro bs
  by_cases hbs : ∃ k, key k = bs
  · obtain ⟨k, rfl⟩ := hbs
    rw [h.entry, h'.entry]
  · have hnot : bs ∉ t := fun hm => hbs (h.only bs hm)
    have hnot' : bs ∉ t' := fun hm => hbs (h'.only bs hm)
    grind

theorem insert (hkey : Function.Injective key) (h : Mirrors key value m t) {k : κ} {v : ν}
    {bs : Bytes} (hv : value v = some bs) : Mirrors key value (m.insert k v) (t.insert (key k) bs)
    where
  entry k' := by
    by_cases hk : k' = k
    · subst hk
      rw [ExtTreeMap.getElem?_insert_self, ExtTreeMap.getElem?_insert_self]
      exact hv.symm
    · have hne : key k' ≠ key k := fun he => hk (hkey he)
      have hold := h.entry k'
      grind
  written k' v' h' := by
    by_cases hk : k' = k
    · subst hk
      rw [ExtTreeMap.getElem?_insert_self] at h'
      obtain rfl := Option.some.inj h'
      rw [hv]
      rfl
    · exact h.written k' v' (by grind)
  only bs' hm := by
    by_cases hb : key k = bs'
    · exact ⟨k, hb⟩
    · exact h.only bs' (by grind)

theorem erase (hkey : Function.Injective key) (h : Mirrors key value m t) (k : κ) :
    Mirrors key value (m.erase k) (t.erase (key k)) where
  entry k' := by
    by_cases hk : k' = k
    · subst hk
      rw [ExtTreeMap.getElem?_erase_self, ExtTreeMap.getElem?_erase_self]
      rfl
    · have hne : key k' ≠ key k := fun he => hk (hkey he)
      have hold := h.entry k'
      grind
  written k' v' h' := h.written k' v' (by grind)
  only bs' hm := h.only bs' (by grind)

omit [LawfulEqOrd κ] in
theorem getElem?_bind_value (h : Mirrors key value m t) {decode : Bytes → Option ν}
    (hvalue : ∀ v bs, value v = some bs → decode bs = some v) (k : κ) :
    t[key k]?.bind decode = m[k]? := by
  rw [h.entry k]
  cases hm : m[k]? with
  | none => rfl
  | some v =>
    obtain ⟨bs, hbs⟩ := Option.isSome_iff_exists.mp (h.written k v hm)
    rw [Option.bind_some, hbs]
    exact hvalue v bs hbs

end Mirrors

section Load
variable {key : κ → Bytes} {value : ν → Option Bytes} {m : ExtTreeMap κ ν} {t : Tree}
  {decodeKey : Bytes → Option κ} {decode : Bytes → Option ν}

theorem getElem?_load (hkey : ∀ k, decodeKey (key k) = some k) (honly : ∀ bs ∈ t, ∃ k, key k = bs)
    (k : κ) : (load decodeKey decode t)[k]? = t[key k]?.bind decode := by
  let entries := t.toList.filterMap (decodeEntry decodeKey decode)
  -- what decodes are the entries of the map, each under a key of its own
  have hmem : ∀ k v, (k, v) ∈ entries ↔ t[key k]?.bind decode = some v := by
    intro k v
    constructor
    · intro hm
      obtain ⟨⟨kb, vb⟩, hp, hdec⟩ := List.mem_filterMap.mp hm
      rw [ExtTreeMap.mem_toList_iff_getElem?_eq_some] at hp
      obtain ⟨k', rfl⟩ := honly kb (by grind)
      simp only [decodeEntry, hkey, Option.bind_eq_bind, Option.bind_some,
        Option.bind_eq_some_iff, Option.some.injEq, Prod.mk.injEq] at hdec
      obtain ⟨v', hv', rfl, rfl⟩ := hdec
      rw [hp]
      exact hv'
    · intro hm
      obtain ⟨vb, hp, hdec⟩ := Option.bind_eq_some_iff.mp hm
      refine List.mem_filterMap.mpr
        ⟨(key k, vb), ExtTreeMap.mem_toList_iff_getElem?_eq_some.mpr hp, ?_⟩
      simp only [decodeEntry, hkey, hdec, Option.bind_eq_bind, Option.bind_some]
  have hdistinct : entries.Pairwise fun a b => ¬ compare a.1 b.1 = .eq := by
    have hbytes : ∀ q ∈ t.toList, ∀ c : κ × ν,
        decodeEntry decodeKey decode q = some c → q.1 = key c.1 := by
      intro q hq c hc
      have hget : t[q.1]? = some q.2 := ExtTreeMap.mem_toList_iff_getElem?_eq_some.mp hq
      obtain ⟨k', hk'⟩ := honly q.1 (by grind)
      simp only [decodeEntry, ← hk', hkey, Option.bind_eq_bind, Option.bind_some,
        Option.bind_eq_some_iff, Option.some.injEq] at hc
      obtain ⟨v', -, rfl⟩ := hc
      exact hk'.symm
    have hkeys := ExtTreeMap.distinct_keys_toList (t := t)
    refine List.pairwise_filterMap.mpr (hkeys.imp_of_mem ?_)
    intro p p' hp hp' hne a ha a' ha' he
    refine hne ?_
    rw [hbytes p hp a ha, hbytes p' hp' a' ha', LawfulEqOrd.eq_of_compare he]
    exact ReflCmp.compare_self
  cases hm : t[key k]?.bind decode with
  | some v =>
    exact ExtTreeMap.getElem?_ofList_of_mem ReflCmp.compare_self hdistinct ((hmem k v).mpr hm)
  | none =>
    classical
    refine ExtTreeMap.getElem?_ofList_of_contains_eq_false ?_
    refine Bool.eq_false_iff.mpr fun hc => ?_
    obtain ⟨⟨k', v⟩, hentry, rfl⟩ := List.mem_map.mp (List.contains_iff_mem.mp hc)
    rw [(hmem k' v).mp hentry] at hm
    cases hm

theorem Mirrors.load_eq (h : Mirrors key value m t) (hkey : ∀ k, decodeKey (key k) = some k)
    (hvalue : ∀ v bs, value v = some bs → decode bs = some v) :
    load decodeKey decode t = m := by
  apply ExtTreeMap.ext_getElem?
  intro k
  rw [getElem?_load hkey h.only, h.getElem?_bind_value hvalue]

theorem mirrors_load (hkey : ∀ k, decodeKey (key k) = some k)
    (hvalue : ∀ v bs, value v = some bs → decode bs = some v)
    (hentries : ∀ bs vb, t[bs]? = some vb → ∃ k v, key k = bs ∧ value v = some vb) :
    Mirrors key value (load decodeKey decode t) t := by
  have honly : ∀ bs ∈ t, ∃ k, key k = bs := by
    intro bs hbs
    obtain ⟨vb, hvb⟩ := FiniteMap.exists_of_mem hbs
    obtain ⟨k, -, hk, -⟩ := hentries bs vb hvb
    exact ⟨k, hk⟩
  have hload : ∀ k, (load decodeKey decode t)[k]? = t[key k]?.bind decode :=
    getElem?_load hkey honly
  refine ⟨fun k => ?_, fun k v hv => ?_, honly⟩
  · rw [hload k]
    cases hvb : t[key k]? with
    | none => rfl
    | some vb =>
      obtain ⟨-, v, -, hv⟩ := hentries (key k) vb hvb
      rw [Option.bind_some, hvalue v vb hv, Option.bind_some, hv]
  · rw [hload k] at hv
    obtain ⟨vb, hvb, hdec⟩ := Option.bind_eq_some_iff.mp hv
    obtain ⟨-, v', -, hv'⟩ := hentries (key k) vb hvb
    obtain rfl := Option.some.inj ((hvalue v' vb hv').symm.trans hdec)
    rw [hv']
    rfl

end Load
end WriteThrough
