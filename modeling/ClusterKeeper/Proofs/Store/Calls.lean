import ClusterKeeper.Proofs.Schema.Metadata

/-!
What a call can do to a store in memory: it is refused and leaves all objects alone, or it stores one
document under the next version. Only an object that is marked for deletion and held up by nothing
takes others with it when it is written.
-/

namespace ClusterKeeper

def Json.IsNamed (raw : Json) (key : ObjectKey) : Prop :=
  raw.metadataField "name" = .str key.name ∧ raw.metadataField "namespace" = .str key.ns

def Json.IsUnmarked (raw : Json) : Prop := raw.metadataField "deletionTimestamp" = .null

namespace Memory

variable {m m' : Memory} {key other : ObjectKey} {raw live : Json} {object reply : Resource}

/-- All objects are as they were. -/
structure Refuses (m m' : Memory) : Prop where
  objects : m'.objects = m.objects
  versions : m.versions ≤ m'.versions
  failures : m'.failures = m.failures
  log : m'.log = m.log

/-- A readable document was put under the key, with the next version. -/
structure Stores (m : Memory) (key : ObjectKey) (raw : Json) (m' : Memory) : Prop where
  objects : m'.objects = Keyed.insert key raw m.objects
  versions : m'.versions = m.versions + 1
  failures : m'.failures = m.failures
  version : raw.metadataField "resourceVersion" = .str (toString m'.versions)

theorem Refuses.get? (h : Refuses m m') (key : ObjectKey) : m'.get? key = m.get? key := by
  rw [Memory.get?, h.objects, Memory.get?]

theorem Stores.get?_self (h : Stores m key raw m') : m'.get? key = some raw := by
  rw [Memory.get?, h.objects, Keyed.lookup_insert_self]

theorem Stores.get?_of_ne (h : Stores m key raw m') (hne : other ≠ key) :
    m'.get? other = m.get? other := by
  rw [Memory.get?, h.objects, Keyed.lookup_insert_of_ne hne, Memory.get?]

/-! ### Collection -/

theorem lookup_erase_imp {objects : List (ObjectKey × Json)}
    (h : (Keyed.erase key objects).lookup other = some raw) : objects.lookup other = some raw := by
  by_cases heq : other = key
  · rw [heq, Keyed.lookup_erase_self] at h
    cases h
  · rwa [Keyed.lookup_erase_of_ne heq] at h

theorem lookup_collect_imp {objects : List (ObjectKey × Json)} {keys : List ObjectKey}
    (h : (collect objects keys).lookup other = some raw) : objects.lookup other = some raw := by
  induction objects, keys using collect.induct with
  | case1 objects => rwa [collect] at h
  | case2 objects key rest hfound ih =>
      rw [collect] at h
      split at h
      · exact ih h
      · next hsome => rw [hfound] at hsome; cases hsome
  | case3 objects key rest removed hfound left ih =>
      rw [collect] at h
      split at h
      · next hnone => rw [hfound] at hnone; cases hnone
      · next found hsome =>
          cases Option.some.inj (hfound.symm.trans hsome)
          exact lookup_erase_imp (ih h)

theorem settle_get?_imp (h : (m.settle key).get? other = some raw) : m.get? other = some raw := by
  rw [settle] at h
  split at h
  · split at h
    · exact lookup_collect_imp h
    · exact h
  · exact h

@[simp] theorem settle_versions (m : Memory) (key : ObjectKey) :
    (m.settle key).versions = m.versions := by
  rw [settle]
  split
  · split <;> rfl
  · rfl

theorem settle_of_not_released (hget : m.get? key = some raw) (h : raw.isReleased = false) :
    m.settle key = m := by
  rw [settle, hget]
  simp only [h, Bool.false_eq_true, if_false]

theorem settle_of_unmarked (hget : m.get? key = some raw) (h : raw.IsUnmarked) :
    m.settle key = m := by
  refine settle_of_not_released hget ?_
  rw [Json.isReleased, h]
  rfl

/-! ### Calls -/

def stamped (m : Memory) (raw : Json) : Json :=
  raw.setMetadataField "resourceVersion" (.str (toString (m.versions + 1)))

def createdDocument (m : Memory) (object : Resource) : Json :=
  m.stamped (object.body.setMetadataField "uid" (.str ("uid-" ++ toString (m.uids + 1))))

def patchedDocument (m : Memory) (live patch : Json) : Json :=
  m.stamped ((Json.merge live patch).setMetadataField "uid" (live.metadataField "uid"))

def replacedDocument (m : Memory) (live : Json) (object : Resource) : Json :=
  m.stamped (updatedDocument live object)

theorem stamped_version (m : Memory) (raw : Json) :
    (m.stamped raw).metadataField "resourceVersion" = .str (toString (m.versions + 1)) :=
  Json.metadataField_setMetadataField _ _ _

/-- A creation is refused, or nothing was there and the object is stored. -/
theorem create_cases (m : Memory) (object : Resource) :
    (∃ e, (m.create object).1 = .error e ∧ Refuses m (m.create object).2) ∨
      ∃ key reply, object.key = .ok key ∧ m.get? key = none ∧
        readAs key.kind (m.createdDocument object) = .ok reply ∧
        (m.create object).1 = .ok reply ∧
        Stores m key (m.createdDocument object) (m.create object).2 := by
  have same : Refuses m m := ⟨rfl, Nat.le_refl _, rfl, rfl⟩
  cases hkey : object.key with
  | error e => exact .inl ⟨e, by rw [create, hkey], by rw [create, hkey]; exact same⟩
  | ok key =>
      cases hfailure : m.failure? .create object.kind with
      | some e =>
          refine .inl ⟨e, ?_, ?_⟩
          · simp only [create, hkey, hfailure]
          · simp only [create, hkey, hfailure]
            exact same
      | none =>
          cases hget : m.get? key with
          | some raw =>
              refine .inl ⟨.alreadyExists key.ref, ?_, ?_⟩
              · simp only [create, hkey, hfailure, hget]
              · simp only [create, hkey, hfailure, hget]
                exact same
          | none =>
              have hdocument : m.createdDocument object =
                ((m.newDocument object).1.bump (m.newDocument object).2).2 := rfl
              cases hread : readAs key.kind (m.createdDocument object) with
              | error e =>
                  rw [hdocument] at hread
                  refine .inl ⟨e, ?_, ?_⟩
                  · simp only [create, hkey, hfailure, hget, hread]
                  · simp only [create, hkey, hfailure, hget, hread]
                    exact ⟨rfl, Nat.le_succ _, rfl, rfl⟩
              | ok reply =>
                  refine .inr ⟨key, reply, rfl, hget, hread, ?_, ?_⟩
                  · rw [hdocument] at hread
                    simp only [create, hkey, hfailure, hget, hread]
                  · rw [hdocument] at hread ⊢
                    simp only [create, hkey, hfailure, hget, hread]
                    exact ⟨rfl, rfl, rfl, stamped_version m _⟩

/-- A document that cannot be read is refused; any other is stored. -/
theorem write_cases (m : Memory) (op : Op) (key : ObjectKey) (raw : Json) :
    (∃ e, readAs key.kind (m.stamped raw) = .error e ∧ (m.write op key raw).1 = .error e ∧
      Refuses m (m.write op key raw).2) ∨
      ∃ reply m', readAs key.kind (m.stamped raw) = .ok reply ∧
        (m.write op key raw).1 = .ok reply ∧ Stores m key (m.stamped raw) m' ∧
        (m.write op key raw).2 = m'.settle key := by
  have hstamped : m.stamped raw = (m.bump raw).2 := rfl
  cases hread : readAs key.kind (m.stamped raw) with
  | error e =>
      rw [hstamped] at hread
      refine .inl ⟨e, rfl, ?_, ?_⟩
      · simp only [write, hread]
      · simp only [write, hread]
        exact ⟨rfl, Nat.le_succ _, rfl, rfl⟩
  | ok reply =>
      rw [hstamped] at hread
      refine .inr ⟨reply, (((m.bump raw).1.put key (m.bump raw).2).logWrite op key), rfl, ?_, ?_, ?_⟩
      · simp only [write, hread]
      · exact ⟨rfl, rfl, rfl, stamped_version m raw⟩
      · simp only [write, hread]

/-- A patch is refused, or the patched document is stored. -/
theorem patch_cases (m : Memory) (key : ObjectKey) (patch : Json) :
    (∃ e, (m.patch key patch).1 = .error e ∧ Refuses m (m.patch key patch).2) ∨
      ∃ live reply m', m.get? key = some live ∧
        readAs key.kind (m.patchedDocument live patch) = .ok reply ∧
        (m.patch key patch).1 = .ok reply ∧ Stores m key (m.patchedDocument live patch) m' ∧
        (m.patch key patch).2 = m'.settle key := by
  have same : Refuses m m := ⟨rfl, Nat.le_refl _, rfl, rfl⟩
  cases hfailure : m.failure? .patch key.kind with
  | some e =>
      refine .inl ⟨e, ?_, ?_⟩
      · simp only [Memory.patch, hfailure]
      · simp only [Memory.patch, hfailure]
        exact same
  | none =>
      cases hget : m.get? key with
      | none =>
          refine .inl ⟨.notFound key.ref, ?_, ?_⟩
          · simp only [Memory.patch, hfailure, hget]
          · simp only [Memory.patch, hfailure, hget]
            exact same
      | some live =>
          simp only [Memory.patch, hfailure, hget]
          rcases m.write_cases .patch key
              ((Json.merge live patch).setMetadataField "uid" (live.metadataField "uid")) with
            ⟨e, -, hreply, hrefused⟩ | ⟨reply, m', hread, hreply, hstores, hsettle⟩
          · exact .inl ⟨e, hreply, hrefused⟩
          · exact .inr ⟨live, reply, m', rfl, hread, hreply, hstores, hsettle⟩

/-- An update is refused, or the object was not stale and takes the place of the stored one. -/
theorem update_cases (m : Memory) (object : Resource) :
    (∃ e, (m.update object).1 = .error e ∧ Refuses m (m.update object).2) ∨
      ∃ key live reply m', object.key = .ok key ∧ m.get? key = some live ∧
        isStale live object = false ∧
        readAs key.kind (m.replacedDocument live object) = .ok reply ∧
        (m.update object).1 = .ok reply ∧ Stores m key (m.replacedDocument live object) m' ∧
        (m.update object).2 = m'.settle key := by
  have same : Refuses m m := ⟨rfl, Nat.le_refl _, rfl, rfl⟩
  cases hkey : object.key with
  | error e => exact .inl ⟨e, by rw [update, hkey], by rw [update, hkey]; exact same⟩
  | ok key =>
      cases hfailure : m.failure? .update object.kind with
      | some e =>
          refine .inl ⟨e, ?_, ?_⟩
          · simp only [update, hkey, hfailure]
          · simp only [update, hkey, hfailure]
            exact same
      | none =>
          cases hget : m.get? key with
          | none =>
              refine .inl ⟨.notFound key.ref, ?_, ?_⟩
              · simp only [update, hkey, hfailure, hget]
              · simp only [update, hkey, hfailure, hget]
                exact same
          | some live =>
              simp only [update, hkey, hfailure, hget]
              cases hstale : isStale live object with
              | true => exact .inl ⟨_, rfl, same⟩
              | false =>
                  rcases m.write_cases .update key (updatedDocument live object) with
                    ⟨e, -, hreply, hrefused⟩ | ⟨reply, m', hread, hreply, hstores, hsettle⟩
                  · exact .inl ⟨e, hreply, hrefused⟩
                  · exact .inr ⟨key, live, reply, m', rfl, hget, hstale, hread, hreply, hstores,
                      hsettle⟩

/-! ### Deletions and unseen changes -/

def markedDocument (m : Memory) (live : Json) : Json :=
  m.stamped (live.setMetadataField "deletionTimestamp" (.str "2025-01-01T00:00:00Z"))

/-- A request for deletion finds nothing, or the object is marked, and goes if nothing holds it up. -/
theorem delete_cases (m : Memory) (key : ObjectKey) :
    m.get? key = none ∧ m.delete key = m ∨ ∃ live m', m.get? key = some live ∧
      Stores m key (m.markedDocument live) m' ∧ m.delete key = m'.settle key := by
  rw [delete]
  cases hget : m.get? key with
  | none => exact .inl ⟨rfl, rfl⟩
  | some live =>
      let marked := live.setMetadataField "deletionTimestamp" (.str "2025-01-01T00:00:00Z")
      let m' := ((m.logWrite .delete key).bump marked).1.put key (m.markedDocument live)
      exact .inr ⟨live, m', rfl, ⟨rfl, rfl, rfl, stamped_version m marked⟩, rfl⟩

theorem exists_of_tamper {patch : Json} (h : m.tamper key patch = some m') :
    ∃ live, m.get? key = some live ∧ Stores m key (m.stamped (live.merge patch)) m' := by
  obtain ⟨live, hget, rfl⟩ := Option.map_eq_some_iff.mp h
  exact ⟨live, hget, rfl, rfl, rfl, stamped_version m _⟩

/-! ### Calls that no failure refuses -/

theorem failure?_of_nil (h : m.failures = []) (op : Op) (kind : Kind) : m.failure? op kind = none := by
  rw [failure?, h]
  rfl

theorem create_of_present (hfailure : m.failure? .create object.kind = none)
    (hkey : object.key = .ok key) (hget : m.get? key = some raw) :
    m.create object = (.error (.alreadyExists key.ref), m) := by
  simp only [create, hkey, hfailure, hget]

theorem create_of_absent (hfailure : m.failure? .create object.kind = none)
    (hkey : object.key = .ok key) (hget : m.get? key = none)
    (hread : readAs key.kind (m.createdDocument object) = .ok reply) :
    (m.create object).1 = .ok reply := by
  have hdocument : m.createdDocument object =
    ((m.newDocument object).1.bump (m.newDocument object).2).2 := rfl
  rw [hdocument] at hread
  simp only [create, hkey, hfailure, hget, hread]

theorem get_of_present (hfailure : m.failure? .get key.kind = none) (hget : m.get? key = some raw)
    (hread : readAs key.kind raw = .ok reply) : m.get key = .ok (some reply) := by
  simp only [Memory.get, hfailure, hget, hread]
  rfl

theorem get_of_absent (hfailure : m.failure? .get key.kind = none) (hget : m.get? key = none) :
    m.get key = .ok none := by
  simp only [Memory.get, hfailure, hget]

theorem patch_of_present {patch : Json} (hfailure : m.failure? .patch key.kind = none)
    (hget : m.get? key = some live)
    (hread : readAs key.kind (m.patchedDocument live patch) = .ok reply) :
    (m.patch key patch).1 = .ok reply := by
  rw [patchedDocument, stamped] at hread
  simp only [Memory.patch, hfailure, hget, write, bump, hread]

theorem update_of_present (hfailure : m.failure? .update object.kind = none)
    (hkey : object.key = .ok key) (hget : m.get? key = some live)
    (hstale : isStale live object = false)
    (hread : readAs key.kind (m.replacedDocument live object) = .ok reply) :
    (m.update object).1 = .ok reply := by
  rw [replacedDocument, stamped] at hread
  simp only [update, hkey, hfailure, hget, hstale, write, bump, hread]
  rfl

theorem update_of_absent (hfailure : m.failure? .update object.kind = none)
    (hkey : object.key = .ok key) (hnone : m.get? key = none) :
    (m.update object).1 = .error (.notFound key.ref) := by
  simp only [update, hkey, hfailure, hnone]

theorem update_of_stale (hfailure : m.failure? .update object.kind = none)
    (hkey : object.key = .ok key) (hlive : m.get? key = some live)
    (hstale : isStale live object = true) :
    (m.update object).1 = .error (.conflict key.ref "the object has been modified") := by
  simp only [update, hkey, hfailure, hlive, hstale, if_true]

theorem get_cases (m : Memory) (key : ObjectKey) :
    (∃ e, m.get key = .error e) ∨ (m.get? key = none ∧ m.get key = .ok none) ∨
      ∃ raw reply, m.get? key = some raw ∧ readAs key.kind raw = .ok reply ∧
        m.get key = .ok (some reply) := by
  rw [Memory.get]
  cases hfailure : m.failure? .get key.kind with
  | some e => exact .inl ⟨e, rfl⟩
  | none =>
      cases hget : m.get? key with
      | none => exact .inr (.inl ⟨rfl, rfl⟩)
      | some raw =>
          cases hread : readAs key.kind raw with
          | error e => exact .inl ⟨e, by simp only [hread, Except.map]⟩
          | ok reply => exact .inr (.inr ⟨raw, reply, rfl, hread, by simp only [hread, Except.map]⟩)

theorem get?_eq_none_of_get (h : m.get key = .ok none) : m.get? key = none := by
  rcases m.get_cases key with ⟨e, herror⟩ | ⟨hnone, -⟩ | ⟨_, _, -, -, hsome⟩
  · cases h.symm.trans herror
  · exact hnone
  · cases h.symm.trans hsome

theorem exists_of_get (h : m.get key = .ok (some reply)) :
    ∃ raw, m.get? key = some raw ∧ readAs key.kind raw = .ok reply := by
  rcases m.get_cases key with ⟨e, herror⟩ | ⟨-, hnone⟩ | ⟨raw, found, hget, hread, hsome⟩
  · cases h.symm.trans herror
  · cases h.symm.trans hnone
  · cases h.symm.trans hsome
    exact ⟨raw, hget, hread⟩

theorem readAs_eq_ok_iff {kind : Kind} :
    readAs kind raw = .ok reply ↔ reply.kind = kind ∧ kind.schema.read raw = .ok reply.body := by
  obtain ⟨replyKind, body⟩ := reply
  rw [readAs, Resource.read]
  cases hread : kind.schema.read raw with
  | error e => simp [Except.map, Except.mapError]
  | ok written => simp [Except.map, Except.mapError, eq_comm]

end Memory

end ClusterKeeper
