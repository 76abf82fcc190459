import LoomHost.Lib.Canonical
import LoomHost.Theory.Cbor

/-!
# The Encoder Is Canonical

What `toCanonical` writes is a canonical item, and it depends on the content of
a value only, not on the order its maps are given in.

Both rest on the sorting of encoded entries. Where the encoded keys of a map are
distinct, sorted means strictly ascending, and there is only one way to sort:
any two orders of the entries come out the same. The keys are encoded before
they are sorted, so a reordering inside a key is gone by then.

## Main definitions

* `Value.KeysDistinct`: Keys are distinct once encoded, at every depth.

## Theorems

* `shortestHead_encodeHead`: Every head is a shortest one.
* `sorted_keys`: The keys of a map ascend.
* `encodeMap_perm`: The order of the entries does not matter.
* `canonical_encodeInto`, `encodeInto_of_reorders`: The two parts.
* `toCanonical_canonical`: The encoder is canonical.
-/

namespace LoomHost

namespace Cbor

open Rfc8949

mutual

/-- The keys of every map, at any depth, are distinct once encoded. -/
def Value.KeysDistinct : Value → Prop
  | .Array a => KeysDistinctAll a
  | .Map m => (m.map fun p => p.1.encodeInto).Nodup ∧ KeysDistinctPairs m
  | _ => True

def KeysDistinctAll : List Value → Prop
  | [] => True
  | v :: a => v.KeysDistinct ∧ KeysDistinctAll a

def KeysDistinctPairs : List (Value × Value) → Prop
  | [] => True
  | (k, v) :: m => (k.KeysDistinct ∧ v.KeysDistinct) ∧ KeysDistinctPairs m

end

theorem keysDistinctAll_iff (a : List Value) : KeysDistinctAll a ↔ ∀ v ∈ a, v.KeysDistinct := by
  induction a with
  | nil => simp only [KeysDistinctAll, List.not_mem_nil, false_implies, implies_true]
  | cons v a ih => rw [KeysDistinctAll, ih, List.forall_mem_cons]

theorem keysDistinctPairs_iff (m : List (Value × Value)) :
    KeysDistinctPairs m ↔ ∀ p ∈ m, p.1.KeysDistinct ∧ p.2.KeysDistinct := by
  induction m with
  | nil => simp only [KeysDistinctPairs, List.not_mem_nil, false_implies, implies_true]
  | cons p m ih => rw [KeysDistinctPairs, ih, List.forall_mem_cons]

section Heads

theorem length_encodeHead (major : UInt8) (arg : UInt64) :
    (encodeHead major arg).length = headLength arg.toNat := by
  have h24 : arg < 24 ↔ arg.toNat < 24 := UInt64.lt_iff_toNat_lt
  have h8 : arg ≤ 0xff ↔ arg.toNat ≤ 0xff := UInt64.le_iff_toNat_le
  have h16 : arg ≤ 0xffff ↔ arg.toNat ≤ 0xffff := UInt64.le_iff_toNat_le
  have h32 : arg ≤ 0xffffffff ↔ arg.toNat ≤ 0xffffffff := UInt64.le_iff_toNat_le
  simp only [encodeHead, headLength, h24, h8, h16, h32]
  split_ifs <;> simp only [List.length_cons, List.length_nil, BigEndian.length_toBE]

/-- Every head is a shortest one. -/
theorem shortestHead_encodeHead (major : UInt8) (arg : UInt64) (hm : major.toNat < 8) :
    ShortestHead major.toNat arg.toNat (encodeHead major arg) := by
  rcases readHead_encodeHead major arg [] hm with ⟨info, hread⟩
  rw [List.append_nil] at hread
  exact shortestHead_of_length major.toNat info arg.toNat _ hread (length_encodeHead major arg)

/-- The head of a length is a shortest one, as a length fits a `usize`. -/
theorem shortestHead_length (major : UInt8) (n : ℕ) (hm : major.toNat < 8) (hn : n < 2 ^ 64) :
    ShortestHead major.toNat n (encodeHead major (UInt64.ofNat n)) := by
  have hhead := shortestHead_encodeHead major (UInt64.ofNat n) hm
  rw [toNat_length n hn] at hhead
  exact hhead

theorem canonical_encodeInt (i : ℤ) : Canonical (encodeInt i) := by
  unfold encodeInt
  split_ifs
  · exact Canonical.unsigned (shortestHead_encodeHead 0 _ (by decide))
  · exact Canonical.negative (shortestHead_encodeHead 1 _ (by decide))

/-- A simple value is its own head. -/
theorem canonical_simple (n : ℕ) (b : UInt8) (hn : n < 24)
    (hb : encodeHead 7 (UInt64.ofNat n) = [b]) : Canonical [b] :=
  Canonical.simple hn (hb ▸ shortestHead_length 7 n (by decide) (by omega))

end Heads

section Sorting

variable {items items' : List (List UInt8 × List UInt8)}

instance {α : Type*} : Std.Total (keyLe (α := α)) :=
  ⟨fun a b => by
    unfold keyLe
    rw [Std.OrientedOrd.eq_swap (a := b.1)]
    cases compare a.1 b.1 <;> simp only [Ordering.isLE_lt, Ordering.swap_lt, Ordering.isLE_gt,
      Bool.false_eq_true, or_false, Ordering.isLE_eq, Ordering.swap_eq, or_self, Ordering.swap_gt,
      or_true]⟩

instance {α : Type*} : IsTrans (List UInt8 × α) keyLe :=
  ⟨fun _ _ _ => Std.TransCmp.isLE_trans⟩

/-- Distinct keys that are in order ascend. -/
theorem lt_of_keyLe {α : Type*} {a b : List UInt8 × α} (hle : keyLe a b) (hne : a.1 ≠ b.1) :
    a.1 < b.1 := by
  rw [← compare_eq_lt_iff]
  refine (Ordering.isLE_iff_eq_lt_or_eq_eq.mp hle).resolve_right (fun heq => hne ?_)
  exact Std.LawfulEqOrd.compare_eq_iff_eq.mp heq

/-- The keys of a sorted map ascend, where they are distinct. -/
theorem sorted_keys (hkeys : (items.map Prod.fst).Nodup) :
    ((items.insertionSort keyLe).map Prod.fst).Pairwise (· < ·) := by
  have hperm := List.perm_insertionSort keyLe items
  have hnodup : ((items.insertionSort keyLe).map Prod.fst).Nodup :=
    (hperm.map Prod.fst).nodup_iff.mpr hkeys
  rw [List.pairwise_map]
  exact (List.pairwise_insertionSort keyLe items).imp₂ (fun _ _ => lt_of_keyLe)
    (List.pairwise_map.mp hnodup)

/-- The order of the entries does not matter, where the keys are distinct. -/
theorem encodeMap_perm (hperm : items.Perm items') (hkeys : (items.map Prod.fst).Nodup) :
    encodeMap items = encodeMap items' := by
  have hsort := List.perm_insertionSort keyLe items
  have hsort' := List.perm_insertionSort keyLe items'
  have heq : items.insertionSort keyLe = items'.insertionSort keyLe := by
    refine List.Perm.eq_of_pairwise (fun a b ha hb hab hba => ?_)
      (List.pairwise_insertionSort keyLe items) (List.pairwise_insertionSort keyLe items')
      (hsort.trans (hperm.trans hsort'.symm))
    -- Entries that are in order both ways have the same key, so they are the same.
    have hkey : a.1 = b.1 := by
      by_contra hne
      exact List.lt_asymm (lt_of_keyLe hab hne) (lt_of_keyLe hba (Ne.symm hne))
    exact List.inj_on_of_nodup_map hkeys (hsort.mem_iff.mp ha)
      (hperm.mem_iff.mpr (hsort'.mem_iff.mp hb)) hkey
  rw [encodeMap, encodeMap, heq]

end Sorting

/-- An encoding is a canonical item. -/
theorem canonical_encodeInto (v : Value) :
    v.Encodable → v.KeysDistinct → Canonical v.encodeInto := by
  induction v using Value.induct with
  | hint i => exact fun _ _ => canonical_encodeInt i
  | hbytes b => exact fun hb _ => Canonical.bytes (shortestHead_length 2 _ (by decide) hb)
  | htext s => exact fun hs _ => Canonical.text (shortestHead_length 3 _ (by decide) hs)
  | harray a ih =>
      rintro ⟨hlen, hall⟩ hkeys
      rw [encodableAll_iff] at hall
      rw [Value.KeysDistinct, keysDistinctAll_iff] at hkeys
      -- The items stand one after the other behind the head.
      rw [Value.encodeInto, encodeElems_eq, List.flatMap_def]
      refine Canonical.array ?_ (fun x hx => ?_)
      · rw [List.length_map]
        exact shortestHead_length 4 _ (by decide) hlen
      · rcases List.mem_map.mp hx with ⟨v, hv, rfl⟩
        exact ih v hv (hall v hv) (hkeys v hv)
  | hmap m ih =>
      rintro ⟨hlen, hall⟩ ⟨hnodup, hkeys⟩
      rw [encodablePairs_iff] at hall
      rw [keysDistinctPairs_iff] at hkeys
      rw [Value.encodeInto, encodeMap, encodeItems_eq]
      have hperm := List.perm_insertionSort keyLe
        (m.map fun p => (p.1.encodeInto, p.2.encodeInto))
      -- Every entry that is written is one of the map's.
      have hentry : ∀ e ∈ (m.map fun p => (p.1.encodeInto, p.2.encodeInto)).insertionSort keyLe,
          ∃ p ∈ m, e = (p.1.encodeInto, p.2.encodeInto) := by
        intro e he
        rcases List.mem_map.mp (hperm.mem_iff.mp he) with ⟨p, hp, heq⟩
        exact ⟨p, hp, heq.symm⟩
      refine Canonical.map ?_ (fun e he => ?_) (fun e he => ?_) (sorted_keys ?_)
      · refine shortestHead_length 5 _ (by decide) ?_
        rw [hperm.length_eq, List.length_map]
        exact hlen
      · rcases hentry e he with ⟨p, hp, rfl⟩
        exact (ih p hp).1 (hall p hp).1 (hkeys p hp).1
      · rcases hentry e he with ⟨p, hp, rfl⟩
        exact (ih p hp).2 (hall p hp).2 (hkeys p hp).2
      · rw [List.map_map]
        exact hnodup
  | hbool b =>
      intro _ _
      cases b with
      | false => exact canonical_simple 20 0xf4 (by decide) (by decide)
      | true => exact canonical_simple 21 0xf5 (by decide) (by decide)
  | hfloat f => exact fun hf => absurd hf id
  | hnull => exact fun _ _ => canonical_simple 22 0xf6 (by decide) (by decide)

/-- Functions that agree along related lists agree on them. -/
theorem map_eq_of_forall₂ {α β γ : Type*} {R : α → β → Prop} {f : α → γ} {g : β → γ}
    {l : List α} {l' : List β} (h : List.Forall₂ R l l') (hf : ∀ x ∈ l, ∀ y, R x y → g y = f x) :
    l'.map g = l.map f := by
  induction h with
  | nil => rfl
  | cons hxy _ ih =>
      rw [List.map_cons, List.map_cons, hf _ List.mem_cons_self _ hxy,
        ih (fun x hx => hf x (List.mem_cons_of_mem _ hx))]

/-- The encoded keys and the encoded values, side by side. -/
theorem encodeItems_zip (m : List (Value × Value)) : encodeItems m =
    ((m.map Prod.fst).map Value.encodeInto).zip ((m.map Prod.snd).map Value.encodeInto) := by
  rw [encodeItems_eq, List.map_map, List.map_map, List.zip_map']
  rfl

/-- A reordering has the same encoding. -/
theorem encodeInto_of_reorders (v : Value) :
    v.KeysDistinct → ∀ w, Reorders v w → w.encodeInto = v.encodeInto := by
  induction v using Value.induct with
  | harray a ih =>
      intro hkeys w hw
      rw [Value.KeysDistinct, keysDistinctAll_iff] at hkeys
      cases hw with
      | refl => rfl
      | array hitems =>
          -- The items have the same encodings, so there are as many of them.
          have hmap := map_eq_of_forall₂ hitems (fun v hv w => ih v hv (hkeys v hv) w)
          rw [Value.encodeInto, Value.encodeInto, encodeElems_eq, encodeElems_eq,
            List.flatMap_def, List.flatMap_def, hmap, ← List.length_map Value.encodeInto, hmap,
            List.length_map]
  | hmap m ih =>
      rintro ⟨hnodup, hkeys⟩ w hw
      rw [keysDistinctPairs_iff] at hkeys
      cases hw with
      | refl => rfl
      | @map _ m' m'' hks hvs hperm =>
          have hmapk := map_eq_of_forall₂ (f := Value.encodeInto) (g := Value.encodeInto) hks
            (fun k hk w => by
              rcases List.mem_map.mp hk with ⟨p, hp, rfl⟩
              exact (ih p hp).1 (hkeys p hp).1 w)
          have hmapv := map_eq_of_forall₂ (f := Value.encodeInto) (g := Value.encodeInto) hvs
            (fun v hv w => by
              rcases List.mem_map.mp hv with ⟨p, hp, rfl⟩
              exact (ih p hp).2 (hkeys p hp).2 w)
          -- The entries are those of `m` once encoded, in some other order.
          have hitems : encodeItems m' = encodeItems m := by
            rw [encodeItems_zip, encodeItems_zip, hmapk, hmapv]
          have hperm' : (encodeItems m).Perm (encodeItems m'') := by
            rw [← hitems, encodeItems_eq, encodeItems_eq]
            exact hperm.map _
          rw [Value.encodeInto, Value.encodeInto]
          refine (encodeMap_perm hperm' ?_).symm
          rw [encodeItems_eq, List.map_map]
          exact hnodup
  | hint i => exact fun _ w hw => by cases hw; rfl
  | hbytes b => exact fun _ w hw => by cases hw; rfl
  | htext s => exact fun _ w hw => by cases hw; rfl
  | hbool b => exact fun _ w hw => by cases hw; rfl
  | hfloat f => exact fun _ w hw => by cases hw; rfl
  | hnull => exact fun _ w hw => by cases hw; rfl

/-- The encoder is canonical. Where keys are distinct once encoded, the encoding
    of a value is one item of definite lengths, with shortest heads and
    ascending keys at every depth, and reordering the entries of maps at any
    depth, inside keys as well, does not change it. -/
theorem toCanonical_canonical (v : Value) (hv : v.Encodable) (hkeys : v.KeysDistinct) :
    Canonical v.toCanonical ∧ ∀ w, Reorders v w → w.toCanonical = v.toCanonical :=
  ⟨canonical_encodeInto v hv hkeys, encodeInto_of_reorders v hkeys⟩

/-- A map under a map for a key, out of order at both levels. -/
def nestedMap : Value :=
  .Map [(.Map [(.Int 2, .Null), (.Int (-1), .Bool true)], .Int 300), (.Int 24, .Text "hi")]

theorem toCanonical_canonical_nested :
    Canonical nestedMap.toCanonical ∧
      ∀ w, Reorders nestedMap w → w.toCanonical = nestedMap.toCanonical := by
  refine toCanonical_canonical nestedMap ?_ ?_
  · simp only [nestedMap, Value.Encodable, EncodablePairs]
    decide
  · simp only [nestedMap, Value.KeysDistinct, KeysDistinctPairs, and_true]
    decide

end Cbor

end LoomHost
