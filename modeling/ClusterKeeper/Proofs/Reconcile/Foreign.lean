import ClusterKeeper.Proofs.Json.Extension
import ClusterKeeper.Proofs.Reconcile.Convergence

/-!
Labels and annotations that others gave a child. A patch leaves them alone; the replacement of a Secret
that keeps no identity leaves the annotations alone, and has the wanted labels only.
-/

namespace ClusterKeeper

open Memory Reconcile

/-- A tag of a document, which is a label or an annotation: an entry of that map in the metadata. -/
def Json.tag? (raw : Json) (field name : String) : Option Json :=
  (raw.metadataField field).get? name

namespace Json

variable {raw patch : Json} {md : Members} {field name : String}

theorem tag?_eq_at? (raw : Json) (field name : String) :
    raw.tag? field name = raw.at? ["metadata", field, name] := by
  rw [at?_of_ne_nil _ _ (by simp), at?_of_ne_nil _ _ (by simp), at?_cons, tag?, metadataField]
  cases ((raw.get "metadata").get field).get? name <;> rfl

theorem tag?_merge (raw : Json) (hpatch : patch.isCanonical = true)
    (hmd : patch.get? "metadata" = some (.obj md))
    (hname : md.lookup field = none ∨
      ∃ entries, md.lookup field = some (.obj entries) ∧ entries.lookup name = none) :
    (merge raw patch).tag? field name = raw.tag? field name := by
  rw [tag?_eq_at?, tag?_eq_at?]
  rcases hname with hfield | ⟨entries, hentries, hname⟩
  · have hpath : patch.at? ["metadata"] = some (.obj md) := by simp [hmd]
    exact at?_merge raw [name] hpatch hpath hfield
  · have hpath : patch.at? ["metadata", field] = some (.obj entries) := by
      have hbelow : (obj md).at? [field] = some (.obj entries) :=
        Option.bind_eq_some_iff.mpr ⟨_, hentries, rfl⟩
      rwa [at?_cons, hmd]
    exact at?_merge raw [] hpatch hpath hname

theorem tag?_unstamped (hfield : field = "annotations" ∨ field = "labels") (raw : Json)
    (name : String) : raw.unstamped.tag? field name = raw.tag? field name := by
  have huid : field ≠ "uid" := by rintro rfl; simp at hfield
  have hversion : field ≠ "resourceVersion" := by rintro rfl; simp at hfield
  rw [tag?, metadataField_unstamped huid hversion, tag?]

end Json

section

variable {ns name tag : String} {cluster : Cluster} {identity : Identity}
  {defaults : WorkloadDefaults} {child : Child} {raw : Json} {live desired : Resource}

/-- A child is wanted with labels and without annotations. -/
theorem Cluster.exists_labels (h : cluster.IsDeclared ns name) (identity : Identity)
    (defaults : WorkloadDefaults) (child : Child) : ∃ md entries,
      ((cluster.children identity defaults).resource child).body.get? "metadata" = some (.obj md) ∧
        md.lookup "labels" = some (.obj entries) ∧ md.lookup "annotations" = none := by
  obtain ⟨md, hmd, -⟩ := (isDesired_children h identity defaults child).metadata
  obtain ⟨other, hmetadata⟩ := cluster.exists_metadata identity defaults child
  have hwritten : (cluster.childMetadata other).toJson = .obj _ := Manifest.Metadata.toJson_of_ns h.ns
  rw [Resource.metadata, Json.get_of_get? hmd, hwritten] at hmetadata
  cases hmetadata
  exact ⟨_, _, hmd, rfl, rfl⟩

theorem Cluster.tag?_children (cluster : Cluster) (identity other : Identity)
    (defaults : WorkloadDefaults) (child : Child) (field tag : String) :
    ((cluster.children other defaults).resource child).body.tag? field tag =
      ((cluster.children identity defaults).resource child).body.tag? field tag := by
  cases child <;> rfl

/-- Applying a child leaves all labels and annotations alone that are not wanted of it. -/
theorem Cluster.tag?_applied (h : cluster.IsDeclared ns name) (raw : Json) {field : String}
    (hfield : field = "annotations" ∨ field = "labels")
    (htag : ((cluster.children identity defaults).resource child).body.tag? field tag = none) :
    (((cluster.children identity defaults).resource child).applied (some raw)).tag? field tag =
      raw.tag? field tag := by
  have hr := isDesired_children h identity defaults child
  obtain ⟨md, entries, hmd, hlabels, hannotations⟩ := exists_labels h identity defaults child
  have hmerge : (raw.merge ((cluster.children identity defaults).resource child).body).tag?
      field tag = raw.tag? field tag := by
    refine Json.tag?_merge raw hr.canonical hmd ?_
    rcases hfield with rfl | rfl
    · exact .inl hannotations
    · refine .inr ⟨entries, hlabels, ?_⟩
      rw [Json.tag?, Json.metadataField, Json.get_of_get? hmd,
        Json.get_of_get? (show (Json.obj md).get? "labels" = _ from hlabels)] at htag
      exact htag
  rw [Resource.applied, hr.mergePatch]
  split
  · exact Json.tag?_unstamped hfield raw tag
  · split
    · exact (Json.tag?_unstamped hfield _ tag).trans hmerge
    · exact Json.tag?_unstamped hfield raw tag

/-- The replacement of a Secret has the annotations of the Secret and the wanted labels. -/
theorem tag?_replaced (hread : readAs .secret raw = .ok live) (desired : Resource)
    (tag : String) :
    (updatedDocument raw (replacementSecret live desired)).unstamped.tag? "annotations" tag =
        raw.tag? "annotations" tag ∧
      (updatedDocument raw (replacementSecret live desired)).unstamped.tag? "labels" tag =
        desired.body.tag? "labels" tag := by
  have htag {field : String} (hfield : field = "annotations" ∨ field = "labels") :
      (updatedDocument raw (replacementSecret live desired)).unstamped.tag? field tag =
        ((replacementSecret live desired).metadata.get field).get? tag := by
    have huid : field ≠ "uid" := by rintro rfl; simp at hfield
    have hmark : field ≠ "deletionTimestamp" := by rintro rfl; simp at hfield
    rw [Json.tag?_unstamped hfield, Json.tag?, metadataField_updatedDocument huid hmark]
  constructor
  · have hkept : live.metadata.get "annotations" = raw.metadataField "annotations" :=
      Kind.secret.metadata_get_textMap (readAs_eq_ok_iff.mp hread).2 rfl
    rw [htag (.inl rfl), replacementSecret_metadata_get (by decide) (by decide), hkept, Json.tag?]
  · have hlabels : (replacementSecret live desired).metadata.get "labels" =
        desired.metadata.get "labels" := by
      rw [replacementSecret_metadata, Json.get, Json.get?_set_of_ne (by decide), Json.get?_set_self]
      rfl
    rw [htag (.inr rfl), hlabels]
    rfl

end

namespace Reconcile

variable {ns name : String} {m : Memory} {ipfs : Resource} {t : Trace}
  {allowed : List Failure → Prop} {answers : Except IdentityError Identity → Prop}
  {defaults : WorkloadDefaults} {cluster : Cluster} {resolved : ResolvedIdentity} {child : Child}
  {raw : Json}

theorem expected_of_ne_secret (hchild : child ≠ .secret) (hraw : m.get? (child.key ns name) = some raw)
    (resolved : ResolvedIdentity) (children : Children) :
    expected ns name resolved children m child =
      (children.resource child).applied (some raw) := by
  rw [← hraw]
  cases child <;> first | exact absurd rfl hchild | rfl

/-- A pass keeps what is not wanted in the labels and annotations of a child, but for the labels of a
Secret whose identity it replaces. -/
theorem tag?_expected (hdeclared : cluster.IsDeclared ns name)
    (hresolved : ResolvedAt ns name answers m resolved)
    (hraw : m.get? (child.key ns name) = some raw) {field tag : String}
    (hfield : field = "annotations" ∨ field = "labels")
    (htag : ((cluster.children resolved.identity defaults).resource child).body.tag? field tag =
      none) :
    (expected ns name resolved (cluster.children resolved.identity defaults) m child).tag? field
      tag = if field = "labels" ∧ child = .secret ∧ raw.identity? = none then none
        else raw.tag? field tag := by
  have happlied := Cluster.tag?_applied hdeclared raw hfield htag
  by_cases hchild : child = .secret
  · subst hchild
    cases hresolved with
    | persisted hidentity =>
        rw [identity?_of_get? hraw] at hidentity
        rw [if_neg (by simp [hidentity]), ← happlied, ← hraw]
        rfl
    | fresh _ hnone => cases hraw.symm.trans hnone
    | @replacing identity live found _ hget hread hunusable =>
        cases hraw.symm.trans hget
        -- the replacement starts from the Secret, but takes the labels of what is wanted
        obtain ⟨hannotations, hlabels⟩ :=
          tag?_replaced hread (cluster.secret identity).resource tag
        have hexpected : expected ns name (.replacing identity live)
            (cluster.children identity defaults) m .secret =
            (updatedDocument raw (replacementSecret live (cluster.secret identity).resource)).unstamped := by
          rw [expected, storedSecret, hraw]
          rfl
        refine (congrArg (Json.tag? · field tag) hexpected).trans ?_
        rcases hfield with rfl | rfl
        · rw [if_neg fun h => absurd h.1 (by decide)]
          exact hannotations
        · rw [if_pos ⟨rfl, rfl, hunusable⟩]
          exact hlabels.trans htag
  · rw [if_neg (by simp [hchild]), expected_of_ne_secret hchild hraw]
    exact happlied

/-- Each child is what a pass over the declaration makes of it, with an identity that the store and
the source allow. -/
def Rebuilt (ns name : String) (ipfs : Resource) (defaults : WorkloadDefaults)
    (answers : Except IdentityError Identity → Prop) (start m : Memory) : Prop :=
  ∃ resolved, ResolvedAt ns name answers start resolved ∧
    ∀ child, (m.get? (child.key ns name)).map Json.unstamped = some (expected ns name resolved
      ((Cluster.ofResource ipfs).children resolved.identity defaults) start child)

theorem Rebuilt.of_objects {start before : Memory}
    (h : Rebuilt ns name ipfs defaults answers before m) (hsame : before.objects = start.objects) :
    Rebuilt ns name ipfs defaults answers start m := by
  obtain ⟨resolved, hresolved, hstored⟩ := h
  rw [expected_congr hsame] at hstored
  exact ⟨resolved, hresolved.of_objects hsame.symm, hstored⟩

theorem rebuilt_converge (hm : m.WellFormed ns name) (hmanages : m.Manages ns name ipfs) :
    (converge defaults ns name ipfs).Meets (isolated allowed answers)
      (fun ending _ m' => ending = .done → Rebuilt ns name ipfs defaults answers m m') t m := by
  refine (meets_resolveIdentity hm).bind fun result t₁ m₁ h => ?_
  cases result with
  | error e => exact nofun
  | ok resolved =>
      have hresolved := h.resolved resolved rfl
      refine (meets_applyChildren (hm.of_objects h.same) (hmanages.isDeclared hm) defaults
        hresolved).mono fun ending t₂ m₂ h₂ hdone => ?_
      obtain ⟨tried, hcomplete, hprogress⟩ := h₂
      have hworked := hcomplete.worked hdone
      refine .of_objects ⟨resolved, hresolved, fun child => hprogress.stored child ?_⟩ h.same
      exact (hcomplete.covers child fun _ => hworked .secret).resolve_right (hworked child)

/-- A pass over a managed declaration is done only if it made of each child what it makes of it. -/
theorem rebuilt_reconcile (hm : m.WellFormed ns name) (hmanages : m.Manages ns name ipfs) :
    (reconcile defaults ns name).Meets (isolated allowed answers)
      (fun result _ m' => result = .ok .done → Rebuilt ns name ipfs defaults answers m m') t m := by
  refine meets_reconcile_of_managed hmanages (fun _ _ _ _ => nofun) fun m₁ hrely => ?_
  obtain ⟨hsame, -⟩ := isolated_rely hrely
  refine (rebuilt_converge (hm.of_objects hsame) (hmanages.of_objects hsame)).mono
    fun ending t₂ m₂ hrebuilt record hdone => (hrebuilt ?_).of_objects hsame
  exact Ending.outcome_eq_done_iff.mp (Except.ok.inj hdone)

/-- A pass that is done leaves the labels and annotations of a child as they were that are not wanted of
it. Only the labels of a Secret that keeps no identity are lost when the Secret is replaced. -/
theorem foreign_tags_kept {source : Trace → Except IdentityError Identity}
    {faults : Trace → List Failure} (identity : Identity) (hm : m.WellFormed ns name)
    (hmanages : m.Manages ns name ipfs)
    (hdone : ((reconcile defaults ns name).run (Session.handler source faults) ⟨m, []⟩).1 = .ok .done)
    (hraw : m.get? (child.key ns name) = some raw) :
    let wanted := ((Cluster.ofResource ipfs).children identity defaults).resource child
    let ended := (reconcile defaults ns name).run (Session.handler source faults) ⟨m, []⟩
    ∃ after, ended.2.memory.get? (child.key ns name) = some after ∧
      ∀ field tag value, field = "annotations" ∨ field = "labels" →
        wanted.body.tag? field tag = none → raw.tag? field tag = some value →
        after.tag? field tag =
          if field = "labels" ∧ child = .secret ∧ raw.identity? = none then none else some value := by
  intro wanted ended
  have hmeets : (reconcile defaults ns name).Meets (isolated (fun failures => ∃ t, faults t = failures)
      fun answer => ∃ t, source t = answer) _ [] m := rebuilt_reconcile hm hmanages
  obtain ⟨resolved, hresolved, hstored⟩ :=
    hmeets.run source faults ⟨m, []⟩ (fun t _ => ⟨_, ⟨t, rfl⟩, rfl⟩) (fun t => ⟨t, rfl⟩) hdone
  obtain ⟨after, hafter, hmade⟩ := Option.map_eq_some_iff.mp (hstored child)
  refine ⟨after, hafter, fun field tag value hfield hwanted hvalue => ?_⟩
  have htag := (Cluster.tag?_children _ identity resolved.identity defaults child field tag).trans
    hwanted
  rw [← Json.tag?_unstamped hfield, hmade,
    tag?_expected (hmanages.isDeclared hm) hresolved hraw hfield htag, hvalue]

/-- The document of a Secret without data, which others gave a label and an annotation. -/
def labelledSecret : Json :=
  .obj [
    ("apiVersion", .str "v1"),
    ("kind", .str "Secret"),
    ("metadata", .obj [
      ("annotations", Json.textMap [("note", "by hand")]),
      ("labels", Json.textMap [("team", "storage")]),
      ("name", .str (ChildNames.ofCluster "ipfs").secret),
      ("namespace", .str "default"),
      ("resourceVersion", .str "2"),
      ("uid", .str "uid-2")])]

def labelled : Memory :=
  { Memory.declared with
    objects := [(⟨.ipfs, "default", "ipfs"⟩, .declared),
      (Child.secret.key "default" "ipfs", labelledSecret)]
    versions := 2
    uids := 2 }

theorem wellFormed_labelled : labelled.WellFormed "default" "ipfs" := by
  have hcases {key : ObjectKey} {raw : Json} (h : labelled.get? key = some raw) :
      key = ⟨.ipfs, "default", "ipfs"⟩ ∧ raw = .declared ∨
        key = Child.secret.key "default" "ipfs" ∧ raw = labelledSecret := by
    have hmem := Keyed.mem_of_lookup h
    simpa [labelled] using hmem
  constructor
  · intro key raw h
    rcases hcases h with ⟨rfl, rfl⟩ | ⟨rfl, rfl⟩
    · exact wellFormed_declared.sound _ _ rfl
    · exact ⟨rfl, ⟨_, rfl⟩, rfl, rfl⟩
  · intro child raw h
    rcases hcases h with ⟨-, rfl⟩ | ⟨-, rfl⟩ <;> rfl

/-- The Secret is replaced, and only its annotation is kept. -/
theorem foreign_tags_kept_secret :
    let ended := (reconcile .standard "default" "ipfs").run
      (Session.handler (fun _ => .ok (.constant 0)) fun _ => []) ⟨labelled, []⟩
    ∃ after, ended.2.memory.get? (Child.secret.key "default" "ipfs") = some after ∧
      after.tag? "annotations" "note" = some (.str "by hand") ∧
      after.tag? "labels" "team" = none := by
  have hmanages : labelled.Manages "default" "ipfs" ⟨.ipfs, .declared⟩ := ⟨_, rfl, readAs_declared, rfl⟩
  have hsource (_ : Trace) (identity : Identity)
      (h : (.ok (.constant 0) : Except IdentityError Identity) = .ok identity) : identity.IsGenerated :=
    Except.ok.inj h ▸ Identity.isGenerated_constant 0
  have hdone := (passed_run (fun _ => []) .standard wellFormed_labelled hmanages hsource).works
    ⟨fun _ => rfl, nofun⟩
  obtain ⟨after, hafter, htags⟩ := foreign_tags_kept (.constant 0) wellFormed_labelled hmanages
    hdone (show labelled.get? (Child.secret.key "default" "ipfs") = some labelledSecret from rfl)
  have hunusable : labelledSecret.identity? = none := rfl
  refine ⟨after, hafter, ?_, ?_⟩
  · have hnote := htags "annotations" "note" _ (.inl rfl) rfl rfl
    rwa [if_neg fun h => absurd h.1 (by decide)] at hnote
  · have hteam := htags "labels" "team" _ (.inr rfl) rfl rfl
    rwa [if_pos ⟨rfl, rfl, hunusable⟩] at hteam

end Reconcile

end ClusterKeeper
