import DragonflyFabric.Proofs.Cells
import DragonflyFabric.Router.Algorithm
import Mathlib.Data.Int.CardIntervalMod
import Mathlib.Data.Set.Card

/-!
# The source hash tells flows apart

A flow is a source host and a target group. Where each of them has thirty-two bits, they stand side by side in one
word, and nothing of either is lost: `toNat_flowWord`. The hash of the flow is this word after five steps. Three of them
fold the upper bits onto the lower ones; as more than half of the bits are shifted out, folding again undoes it. Two of
them multiply by an odd word, which has an inverse. So the steps together are a permutation of words, `mixing`, and going
back reads a flow off its hash: `invOn_flowHash`.

* `ncard_flowsAt`: where hashes are reduced to slots, every slot gets as many flows as any other, up to one.
* `flows_apart`: no two flows share a hash, and every word is the hash of one.
-/

namespace DragonflyFabric

/-! ### Steps that can be undone -/

/-- A word with its upper bits folded onto the lower ones. -/
def folded (x : UInt64) : UInt64 := x ^^^ (x >>> 33)

theorem folded_folded (x : UInt64) : folded (folded x) = x := by
  have hout : (x >>> 33) >>> 33 = 0 := by
    rw [← UInt64.toNat_inj, UInt64.toNat_shiftRight, UInt64.toNat_shiftRight, ← Nat.shiftRight_add]
    exact Nat.shiftRight_eq_zero _ _ (Nat.lt_trans x.toNat_lt (by decide))
  calc folded (folded x)
      = (x ^^^ (x >>> 33)) ^^^ ((x >>> 33) ^^^ ((x >>> 33) >>> 33)) := by rw [folded, folded, UInt64.shiftRight_xor]
    _ = x ^^^ ((x >>> 33) ^^^ (x >>> 33)) := by rw [hout, UInt64.xor_zero, UInt64.xor_assoc]
    _ = x := by rw [UInt64.xor_self, UInt64.xor_zero]

/-- Folding, which is its own inverse. -/
def folding : Equiv.Perm UInt64 := Function.Involutive.toPerm folded folded_folded

/-- Multiplication by a word that has an inverse. -/
def scaling (factor inverse : UInt64) (h : factor * inverse = 1) : Equiv.Perm UInt64 where
  toFun x := x * factor
  invFun x := x * inverse
  left_inv x := by
    show x * factor * inverse = x
    rw [UInt64.mul_assoc, h, UInt64.mul_one]
  right_inv x := by
    show x * inverse * factor = x
    rw [UInt64.mul_assoc, UInt64.mul_comm inverse, h, UInt64.mul_one]

/-- The steps from the word of a flow to its hash. -/
def mixing : Equiv.Perm UInt64 :=
  folding.trans <|
    (scaling 0xff51afd7ed558ccd 0x4f74430c22a54005 (by decide)).trans <|
      folding.trans <| (scaling 0xc4ceb9fe1a85ec53 0x9cb4b2f8129337db (by decide)).trans folding

/-! ### The word of a flow -/

/-- The word of a flow: the group above the host. -/
def flowWord (source group : UInt64) : UInt64 := source ^^^ (group <<< 32)

theorem sourceHash_eq (source group : UInt64) : sourceHash source group = mixing (flowWord source group) := rfl

variable {source group hash links slot : Nat}

theorem toNat_shiftLeft_ofNat (hg : group < 2 ^ 32) : (UInt64.ofNat group <<< 32).toNat = group * 2 ^ 32 := by
  rw [UInt64.toNat_shiftLeft, UInt64.toNat_ofNat_of_lt' (Nat.lt_trans hg (by decide))]
  show group <<< 32 % 2 ^ 64 = group * 2 ^ 32
  rw [Nat.shiftLeft_eq, Nat.mod_eq_of_lt (by omega)]

/-- Host and group do not overlap where each has thirty-two bits. -/
theorem toNat_flowWord (hs : source < 2 ^ 32) (hg : group < 2 ^ 32) :
    (flowWord (UInt64.ofNat source) (UInt64.ofNat group)).toNat = group * 2 ^ 32 + source := by
  rw [flowWord, UInt64.toNat_xor, toNat_shiftLeft_ofNat hg,
    UInt64.toNat_ofNat_of_lt' (Nat.lt_trans hs (by decide))]
  have hlow : (source ^^^ group * 2 ^ 32) % 2 ^ 32 = source := by
    rw [Nat.xor_mod_two_pow, Nat.mod_eq_of_lt hs, Nat.mul_mod_left, Nat.xor_zero]
  have hhigh : (source ^^^ group * 2 ^ 32) / 2 ^ 32 = group := by
    rw [Nat.xor_div_two_pow, Nat.div_eq_of_lt hs, Nat.mul_div_cancel _ (by decide), Nat.zero_xor]
  omega

-- A wider host reaches into the group.
example : flowWord 0x100000000 0 = flowWord 0 1 := by decide

/-! ### Flows and hashes -/

/-- The flows whose host and group have thirty-two bits each. -/
def narrowFlows : Set (Nat × Nat) := {flow | flow.1 < 2 ^ 32 ∧ flow.2 < 2 ^ 32}

/-- The hash of a flow, as a number. -/
def flowHash (flow : Nat × Nat) : Nat := (sourceHash (UInt64.ofNat flow.1) (UInt64.ofNat flow.2)).toNat

/-- The flow behind a hash: its word, taken apart. -/
def flowBehind (hash : Nat) : Nat × Nat :=
  let word := (mixing.symm (UInt64.ofNat hash)).toNat
  (word % 2 ^ 32, word / 2 ^ 32)

theorem mapsTo_flowHash : Set.MapsTo flowHash narrowFlows (Set.Iio (2 ^ 64)) := fun _ _ => UInt64.toNat_lt _

theorem mapsTo_flowBehind : Set.MapsTo flowBehind (Set.Iio (2 ^ 64)) narrowFlows :=
  fun _ _ => ⟨Nat.mod_lt _ (by decide), Nat.div_lt_of_lt_mul (UInt64.toNat_lt _)⟩

theorem flowBehind_flowHash {flow : Nat × Nat} (h : flow ∈ narrowFlows) : flowBehind (flowHash flow) = flow := by
  rw [flowBehind, flowHash, UInt64.ofNat_toNat, sourceHash_eq, Equiv.symm_apply_apply,
    toNat_flowWord h.1 h.2, Grid.place_mod h.1, Grid.place_div h.1]

theorem flowHash_flowBehind (h : hash < 2 ^ 64) : flowHash (flowBehind hash) = hash := by
  obtain ⟨hs, hg⟩ := mapsTo_flowBehind h
  have hword : flowWord (UInt64.ofNat (flowBehind hash).1) (UInt64.ofNat (flowBehind hash).2) =
      mixing.symm (UInt64.ofNat hash) := by
    rw [← UInt64.toNat_inj, toNat_flowWord hs hg]
    exact Nat.div_add_mod' _ _
  rw [flowHash, sourceHash_eq, hword, Equiv.apply_symm_apply]
  exact UInt64.toNat_ofNat_of_lt' h

/-- **Flows and hashes name each other.** -/
theorem invOn_flowHash : Set.InvOn flowBehind flowHash narrowFlows (Set.Iio (2 ^ 64)) :=
  ⟨fun _ => flowBehind_flowHash, fun _ => flowHash_flowBehind⟩

theorem bijOn_flowHash : Set.BijOn flowHash narrowFlows (Set.Iio (2 ^ 64)) :=
  invOn_flowHash.bijOn mapsTo_flowHash mapsTo_flowBehind

/-! ### Flows and slots -/

/-- The flows that take a slot. -/
def flowsAt (links slot : Nat) : Set (Nat × Nat) := {flow ∈ narrowFlows | hashedSlot flow.1 flow.2 links = slot}

/-- The hashes that are reduced to a slot. -/
def hashesAt (links slot : Nat) : Finset Nat := (Finset.range (2 ^ 64)).filter (· % links = slot)

theorem mem_hashesAt_iff : hash ∈ hashesAt links slot ↔ hash < 2 ^ 64 ∧ hash % links = slot := by
  rw [hashesAt, Finset.mem_filter, Finset.mem_range]

theorem card_hashesAt (h : slot < links) :
    (hashesAt links slot).card = 2 ^ 64 / links + if slot < 2 ^ 64 % links then 1 else 0 := by
  have hcount := Nat.count_modEq_card (2 ^ 64) (Nat.zero_lt_of_lt h) slot
  simp only [Nat.ModEq, Nat.mod_eq_of_lt h] at hcount
  rw [hashesAt, ← Nat.count_eq_card_filter_range, hcount]

/-- A flow takes the slot that its hash is reduced to. -/
theorem bijOn_flowsAt (links slot : Nat) : Set.BijOn flowHash (flowsAt links slot) (hashesAt links slot) := by
  have hflows : flowsAt links slot = narrowFlows ∩ Set.preimage flowHash (hashesAt links slot) := by
    ext flow
    refine and_congr_right fun hflow => ?_
    have hlt : flowHash flow < 2 ^ 64 := mapsTo_flowHash hflow
    rw [Set.mem_preimage, Finset.mem_coe, mem_hashesAt_iff, and_iff_right hlt]
    rfl
  rw [hflows]
  exact bijOn_flowHash.subset_right fun hash hhash => (mem_hashesAt_iff.mp hhash).1

/-- **Every slot gets as many flows as any other**, up to one. -/
theorem ncard_flowsAt (h : slot < links) :
    (flowsAt links slot).ncard = 2 ^ 64 / links + if slot < 2 ^ 64 % links then 1 else 0 := by
  rw [(bijOn_flowsAt links slot).ncard_eq, Set.ncard_coe_finset, card_hashesAt h]

/-! ### No two flows share a hash -/

/-- **No two flows share a hash.** The hash of a flow is a permutation of words, taken at the word in which the group
stands above the host. So flows whose host and group have thirty-two bits each and words correspond one to one, and
only the reduction to slots makes flows share one; it does so evenly, whatever the number of links. -/
theorem flows_apart :
    (∀ source group : UInt64, sourceHash source group = mixing (source ^^^ (group <<< 32))) ∧
    Function.Bijective mixing ∧
    (∀ source group source' group' : Nat, source < 2 ^ 32 → group < 2 ^ 32 → source' < 2 ^ 32 → group' < 2 ^ 32 →
      sourceHash (UInt64.ofNat source) (UInt64.ofNat group) = sourceHash (UInt64.ofNat source') (UInt64.ofNat group') →
      source = source' ∧ group = group') ∧
    Set.BijOn flowHash narrowFlows (Set.Iio (2 ^ 64)) ∧
    ∀ links slot, slot < links →
      (flowsAt links slot).ncard = 2 ^ 64 / links + if slot < 2 ^ 64 % links then 1 else 0 := by
  refine ⟨fun _ _ => rfl, mixing.bijective, fun source group source' group' hs hg hs' hg' heq => ?_, bijOn_flowHash,
    fun links slot h => ncard_flowsAt h⟩
  have hflow : (source, group) = (source', group') :=
    bijOn_flowHash.injOn ⟨hs, hg⟩ ⟨hs', hg'⟩ (congrArg UInt64.toNat heq)
  exact Prod.mk.inj hflow

/-- One host with two groups, and the first and the last of three slots. -/
theorem flows_apart_sample : sourceHash 17 3 ≠ sourceHash 17 4 ∧ flowHash (17, 3) ≠ flowHash (17, 4) ∧
    (flowsAt 3 0).ncard = 6148914691236517206 ∧ (flowsAt 3 2).ncard = 6148914691236517205 := by
  obtain ⟨-, -, hapart, -, hslots⟩ := flows_apart
  have hne : sourceHash 17 3 ≠ sourceHash 17 4 := fun heq => by
    have hsame := hapart 17 3 17 4 (by decide) (by decide) (by decide) (by decide) heq
    exact absurd hsame.2 (by decide)
  exact ⟨hne, fun heq => hne (UInt64.toNat_inj.mp heq), hslots 3 0 (by decide), hslots 3 2 (by decide)⟩

end DragonflyFabric
