import ClusterKeeper.Proofs.Store.Fields
import ClusterKeeper.Proofs.Store.Versions

/-!
Uids are given out once, and an object keeps its uid for as long as it is stored. So a uid that was
given out is nowhere but where it was, and one that is gone does not come back.
-/

namespace ClusterKeeper.Memory

variable {m m' m'' : Memory} {key : ObjectKey} {raw : Json} {uid : String}

def HasUid (m : Memory) (key : ObjectKey) (uid : String) : Prop :=
  ∃ raw, m.get? key = some raw ∧ raw.metadataField "uid" = .str uid

def uidOf (n : Nat) : String := "uid-" ++ toString n

theorem uidOf_inj {a b : Nat} : uidOf a = uidOf b ↔ a = b := by
  rw [uidOf, uidOf, String.append_right_inj, toString_nat_inj]

/-- What is stored now has the uid of what was stored under its key before, or one from in between. -/
structure Lineage (m m' : Memory) : Prop where
  uids : m.uids ≤ m'.uids
  born : ∀ {key raw}, m'.get? key = some raw →
    (∃ live, m.get? key = some live ∧ live.metadataField "uid" = raw.metadataField "uid") ∨
      ∃ n, m.uids < n ∧ n ≤ m'.uids ∧ raw.metadataField "uid" = .str (uidOf n)

namespace Lineage

theorem of_removal (huids : m.uids ≤ m'.uids)
    (hget : ∀ {key raw}, m'.get? key = some raw → m.get? key = some raw) : Lineage m m' :=
  ⟨huids, fun hraw => .inl ⟨_, hget hraw, rfl⟩⟩

theorem refl (m : Memory) : Lineage m m := of_removal (Nat.le_refl _) id

theorem trans (h : Lineage m m') (h' : Lineage m' m'') : Lineage m m'' := by
  refine ⟨Nat.le_trans h.uids h'.uids, fun {key raw} hraw => ?_⟩
  rcases h'.born hraw with ⟨live, hlive, huid⟩ | ⟨n, hlower, hupper, huid⟩
  · rcases h.born hlive with ⟨first, hfirst, hsame⟩ | ⟨n, hlower, hupper, hfresh⟩
    · exact .inl ⟨first, hfirst, hsame.trans huid⟩
    · exact .inr ⟨n, hlower, Nat.le_trans hupper h'.uids, huid.symm.trans hfresh⟩
  · exact .inr ⟨n, Nat.lt_of_le_of_lt h.uids hlower, hupper, huid⟩

theorem hasUid (h : Lineage m m') (hissued : ∃ n ≤ m.uids, uid = uidOf n)
    (huid : m'.HasUid key uid) : m.HasUid key uid := by
  obtain ⟨n, hn, rfl⟩ := hissued
  obtain ⟨raw, hraw, huid⟩ := huid
  rcases h.born hraw with ⟨live, hlive, hsame⟩ | ⟨k, hlower, -, hfresh⟩
  · exact ⟨live, hlive, hsame.trans huid⟩
  · have hk := uidOf_inj.mp (Json.str.inj (huid.symm.trans hfresh))
    omega

theorem issued (h : Lineage .empty m) (hget : m.get? key = some raw) :
    ∃ n ≤ m.uids, raw.metadataField "uid" = .str (uidOf n) := by
  rcases h.born hget with ⟨live, hlive, -⟩ | ⟨n, -, hn, huid⟩
  · cases hlive
  · exact ⟨n, hn, huid⟩

end Lineage

/-! ### Calls -/

@[simp] theorem settle_uids (m : Memory) (key : ObjectKey) : (m.settle key).uids = m.uids := by
  rw [settle]
  split
  · split <;> rfl
  · rfl

@[simp] theorem write_uids (m : Memory) (op : Op) (key : ObjectKey) (raw : Json) :
    (m.write op key raw).2.uids = m.uids := by
  simp only [write, bump]
  split
  · rfl
  · exact settle_uids _ key

@[simp] theorem patch_uids (m : Memory) (key : ObjectKey) (patch : Json) :
    (m.patch key patch).2.uids = m.uids := by
  rw [Memory.patch]
  split
  · rfl
  · rfl
  · exact write_uids _ _ _ _

@[simp] theorem update_uids (m : Memory) (object : Resource) : (m.update object).2.uids = m.uids := by
  rw [update]
  split
  · rfl
  · split
    · rfl
    · rfl
    · split
      · rfl
      · exact write_uids _ _ _ _

@[simp] theorem delete_uids (m : Memory) (key : ObjectKey) : (m.delete key).uids = m.uids := by
  rw [delete]
  split
  · rfl
  · exact settle_uids _ key

theorem tamper_uids {patch : Json} (h : m.tamper key patch = some m') : m'.uids = m.uids := by
  obtain ⟨live, -, rfl⟩ := Option.map_eq_some_iff.mp h
  rfl

theorem create_uids (m : Memory) (object : Resource) :
    m.uids ≤ (m.create object).2.uids ∧
      ∀ reply, (m.create object).1 = .ok reply → (m.create object).2.uids = m.uids + 1 := by
  rw [create]
  split
  · exact ⟨Nat.le_refl _, by rintro _ ⟨⟩⟩
  · split
    · exact ⟨Nat.le_refl _, by rintro _ ⟨⟩⟩
    · exact ⟨Nat.le_refl _, by rintro _ ⟨⟩⟩
    · simp only [newDocument, bump]
      split
      · exact ⟨Nat.le_succ _, by rintro _ ⟨⟩⟩
      · exact ⟨Nat.le_succ _, fun _ _ => rfl⟩

end ClusterKeeper.Memory
