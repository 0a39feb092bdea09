import ClusterKeeper.Manifest.Children
import ClusterKeeper.Proofs.Cluster.Storage
import ClusterKeeper.Proofs.Keyed
import ClusterKeeper.Proofs.Text
import Mathlib.Data.List.Forall2

/-!
What the size of the volumes changes in the scripts of a cluster: what stands after
`Datastore.StorageMax`, which is one word of a shell if the size is.
-/

namespace ClusterKeeper

namespace Shell

def special : List Char := "|&;<>()$`\\\"'*?[]#~=%!\x7b\x7d^".toList

def isPlain (c : Char) : Bool := !Text.isBlank c && !special.contains c

/-- One argument of a command, whatever stands around it. -/
def IsWord (text : List Char) : Prop := text ≠ [] ∧ text.all isPlain = true

instance (text : List Char) : Decidable (IsWord text) :=
  inferInstanceAs (Decidable (_ ∧ _))

theorem isPlain_of_isAlphanum {c : Char} (h : c.isAlphanum = true) : isPlain c = true := by
  have hlt : c.toNat < 128 := by
    change (c.isUpper || c.isLower || c.isDigit) = true at h
    rw [Bool.or_eq_true, Bool.or_eq_true] at h
    have hlast : c.val ≤ 'z'.val := by
      rcases h with (h | h) | h
      · exact UInt32.le_trans (of_decide_eq_true h).2 (by decide)
      · exact of_decide_eq_true (Bool.and_eq_true_iff.mp h).2
      · exact UInt32.le_trans (of_decide_eq_true (Bool.and_eq_true_iff.mp h).2) (by decide)
    exact Nat.lt_of_le_of_lt (UInt32.le_iff_toNat_le.mp hlast) (by decide)
  have hall : ∀ n < 128, (Char.ofNat n).isAlphanum = true → isPlain (Char.ofNat n) = true := by
    decide +kernel
  have hc := hall c.toNat hlt
  rw [Char.ofNat_toNat] at hc
  exact hc h

theorem isPlain_of_isAmountChar {c : Char} (h : Storage.isAmountChar c = true) :
    isPlain c = true := by
  rw [Storage.isAmountChar, Bool.or_eq_true, decide_eq_true_eq] at h
  rcases h with h | rfl
  · exact isPlain_of_isAlphanum (by rw [Char.isAlphanum, h, Bool.or_true])
  · decide +kernel

theorem isWord_amount {amount name : List Char} (hne : amount ≠ [])
    (hamount : ∀ c ∈ amount, Storage.isAmountChar c = true)
    (hname : ∀ c ∈ name, c.isAlpha = true) : IsWord (amount ++ name) := by
  refine ⟨by simp [hne], List.all_eq_true.mpr fun c hc => ?_⟩
  rcases List.mem_append.mp hc with hc | hc
  · exact isPlain_of_isAmountChar (hamount c hc)
  · exact isPlain_of_isAlphanum (by rw [Char.isAlphanum, hname c hc, Bool.true_or])

/-- The limit is the trimmed size as it is, or the limit and the trimmed size are words both. -/
theorem datastoreMax_eq_or_isWord (quantity : String) :
    (Storage.datastoreMax quantity).toList = Text.trimChars quantity.toList ∨
      IsWord (Storage.datastoreMax quantity).toList ∧ IsWord (Text.trimChars quantity.toList) := by
  rcases Storage.datastoreMax_cases quantity with
    h | ⟨amount, suffix, unit, hsize, hne, hamount, hunit, hmax⟩
  · exact .inl h
  · have hletters := List.all_eq_true.mp (Storage.isAlpha_of_unit? hunit)
    rw [hsize, hmax]
    exact .inr
      ⟨isWord_amount hne hamount fun c hc => hletters c (List.mem_append_right _ hc),
       isWord_amount hne hamount fun c hc => hletters c (List.mem_append_left _ hc)⟩

theorem isWord_datastoreMax_iff (quantity : String) :
    IsWord (Storage.datastoreMax quantity).toList ↔ IsWord (Text.trimChars quantity.toList) := by
  rcases datastoreMax_eq_or_isWord quantity with h | ⟨hmax, hsize⟩
  · rw [h]
  · exact iff_of_true hmax hsize

theorem IsWord.notMem {text : List Char} (h : IsWord text) {c : Char} (hc : isPlain c = false) :
    c ∉ text := by
  intro hmem
  rw [List.all_eq_true.mp h.2 c hmem] at hc
  cases hc

end Shell

namespace Manifest.Script

theorem toList_ofLines {lines : List String} {texts : List (List Char)}
    (h : List.Forall₂ (fun line text => line = String.ofList text) lines texts) :
    (ofLines lines).toList = texts.flatMap (· ++ ['\n']) := by
  induction h with
  | nil => rfl
  | @cons line text lines texts hline _ ih =>
      rw [hline, ofLines, List.map_cons, String.join_cons, String.toList_append, List.flatMap_cons,
        ← ih, String.toList_append, String.toList_ofList]
      rfl

theorem append_eq_ofList {s t : String} {l m : List Char} (hs : s = String.ofList l)
    (ht : t = String.ofList m) : s ++ t = String.ofList (l ++ m) := by
  rw [hs, ht, String.ofList_append]

/-- All places of the entrypoint are filled in. -/
theorem placeMark_not_infix_entrypoint : ¬Text.placeMark <:+: entrypoint.toList := by
  -- A line is written as its characters first: to decode so long a text takes far longer.
  have htemplate : entrypointTemplate.toList = _ :=
    toList_ofLines (by repeat' first | apply append_eq_ofList | constructor)
  rw [entrypoint, Text.toList_fill, htemplate]
  decide +kernel

/-- The parts of `configure-ipfs.sh` around the limit, which is the last place to be filled in. -/
def aroundLimit : List (List Char) :=
  Text.splitFrom (Text.place "STORAGE_MAX").toList 0
    (Text.fill configureIpfsTemplate configureIpfsValues).toList

def beforeLimit : String := String.ofList (aroundLimit.head?.getD [])

def afterLimit : String := String.ofList (aroundLimit.getLast?.getD [])

def limitCommand : String := "ipfs config Datastore.StorageMax"

theorem aroundLimit_spec :
    aroundLimit.length = 2 ∧ limitCommand.toList ++ [' '] <:+ beforeLimit.toList ∧
      ['\n'] <+: afterLimit.toList ∧ ¬Text.placeMark <:+: beforeLimit.toList ∧
        ¬Text.placeMark <:+: afterLimit.toList := by
  have htemplate : configureIpfsTemplate.toList = _ :=
    toList_ofLines (by repeat' first | apply append_eq_ofList | constructor)
  rw [beforeLimit, afterLimit, String.toList_ofList, String.toList_ofList, aroundLimit,
    Text.toList_fill, htemplate]
  decide +kernel

/-- The limit stands in its command, and nothing else depends on the size. -/
theorem configureIpfs_eq (quantity : String) :
    configureIpfs quantity = beforeLimit ++ Storage.datastoreMax quantity ++ afterLimit := by
  obtain ⟨before, after, haround⟩ := List.length_eq_two.mp aroundLimit_spec.1
  rw [configureIpfs, Text.fill_append_singleton, Text.replace, Text.replaceChars]
  change String.ofList (List.intercalate _ aroundLimit) = _
  rw [beforeLimit, afterLimit, haround]
  simp [List.intercalate, String.ofList_append, String.append_assoc]

def lineCount (script : String) : Nat := script.toList.count '\n'

theorem lineCount_configureIpfs (quantity : String) :
    lineCount (configureIpfs quantity) =
      lineCount (beforeLimit ++ afterLimit) + (Text.trimChars quantity.toList).count '\n' := by
  have hlimit : (Storage.datastoreMax quantity).toList.count '\n' =
      (Text.trimChars quantity.toList).count '\n' := by
    rcases Shell.datastoreMax_eq_or_isWord quantity with h | ⟨hmax, hsize⟩
    · rw [h]
    · have hplain : Shell.isPlain '\n' = false := by decide +kernel
      rw [List.count_eq_zero_of_not_mem (hmax.notMem hplain),
        List.count_eq_zero_of_not_mem (hsize.notMem hplain)]
  simp only [lineCount, configureIpfs_eq, String.toList_append, List.count_append, hlimit]
  omega

/-- A place is open in `configure-ipfs.sh` only if the size brings it along. -/
theorem placeMark_infix_configureIpfs_iff (quantity : String) :
    Text.placeMark <:+: (configureIpfs quantity).toList ↔
      Text.placeMark <:+: Text.trimChars quantity.toList := by
  have hlimit : Text.placeMark <:+: (Storage.datastoreMax quantity).toList ↔
      Text.placeMark <:+: Text.trimChars quantity.toList := by
    rcases Shell.datastoreMax_eq_or_isWord quantity with h | ⟨hmax, hsize⟩
    · rw [h]
    · have hplain : Shell.isPlain '\x7b' = false := by decide +kernel
      have hmark : '\x7b' ∈ Text.placeMark := List.mem_cons_self
      exact iff_of_false (fun h => hmax.notMem hplain (h.subset hmark))
        fun h => hsize.notMem hplain (h.subset hmark)
  -- The blank before the limit and the end of the line after it keep a mark on one side.
  obtain ⟨-, ⟨before, hbefore⟩, ⟨after, hafter⟩, hopen, hclosed⟩ := aroundLimit_spec
  have hscript : (configureIpfs quantity).toList =
      (before ++ limitCommand.toList) ++ ' ' ::
        ((Storage.datastoreMax quantity).toList ++ '\n' :: after) := by
    rw [configureIpfs_eq, String.toList_append, String.toList_append, ← hbefore, ← hafter]
    simp only [List.append_assoc, List.cons_append, List.nil_append]
  have hbefore' : ¬Text.placeMark <:+: before ++ limitCommand.toList := by
    intro h
    rw [← hbefore, ← List.append_assoc] at hopen
    exact hopen (h.trans (List.prefix_append _ _).isInfix)
  have hafter' : ¬Text.placeMark <:+: after := by
    intro h
    rw [← hafter] at hclosed
    exact hclosed (h.trans (List.suffix_append _ _).isInfix)
  rw [hscript, Text.infix_append_cons_iff (by decide), Text.infix_append_cons_iff (by decide),
    hlimit]
  simp only [hbefore', hafter', false_or, or_false]

end Manifest.Script

namespace Cluster

open Manifest.Script

def script? (cluster : Cluster) (name : String) : Option String :=
  cluster.scriptsConfigMap.data.lookup name

def withDefaults (cluster : Cluster) : Cluster := { cluster with spec := .default }

example : (Schema.ipfsSpec.read (.obj [])).map ClusterSpec.ofJson = .ok .default := rfl

/-- The size of the volumes is only a word in the scripts: `configure-ipfs.sh` is that of the
default spec with another argument of `Datastore.StorageMax`, and no place is open in any script. -/
structure Confined (cluster : Cluster) : Prop where
  argument : ∃ word usual, Shell.IsWord word.toList ∧
    cluster.script? DataKey.configureIpfsScript = some (beforeLimit ++ word ++ afterLimit) ∧
      cluster.withDefaults.script? DataKey.configureIpfsScript =
        some (beforeLimit ++ usual ++ afterLimit)
  lines : (cluster.script? DataKey.configureIpfsScript).map lineCount =
    (cluster.withDefaults.script? DataKey.configureIpfsScript).map lineCount
  filled : ∀ name script, cluster.script? name = some script →
    ¬Text.placeMark <:+: script.toList

theorem script?_configureIpfs (cluster : Cluster) :
    cluster.script? DataKey.configureIpfsScript = some (configureIpfs cluster.spec.ipfsStorage) :=
  rfl

theorem eq_of_script? {cluster : Cluster} {name script : String}
    (h : cluster.script? name = some script) :
    name = DataKey.configureIpfsScript ∧ script = configureIpfs cluster.spec.ipfsStorage ∨
      name ≠ DataKey.configureIpfsScript ∧ script = entrypoint := by
  rw [script?, scriptsConfigMap] at h
  by_cases hname : name = DataKey.configureIpfsScript
  · subst hname
    exact .inl ⟨rfl, (Option.some.inj h).symm⟩
  · rw [List.lookup_cons, beq_false_of_ne hname] at h
    obtain ⟨-, hscript⟩ := Prod.mk.inj (List.mem_singleton.mp (Keyed.mem_of_lookup h))
    exact .inr ⟨hname, hscript⟩

theorem lineCount_script {cluster : Cluster} {script usual : String}
    (hscript : cluster.script? DataKey.configureIpfsScript = some script)
    (husual : cluster.withDefaults.script? DataKey.configureIpfsScript = some usual) :
    lineCount script =
      lineCount usual + (Text.trimChars cluster.spec.ipfsStorage.toList).count '\n' := by
  have hdefault : (Text.trimChars ClusterSpec.default.ipfsStorage.toList).count '\n' = 0 := by
    decide +kernel
  rw [script?_configureIpfs, Option.some.injEq] at hscript husual
  rw [← hscript, ← husual, lineCount_configureIpfs, lineCount_configureIpfs, withDefaults, hdefault,
    Nat.add_zero]

/-- A place is open in a script only if the size has brought it into `configure-ipfs.sh`. -/
theorem placeMark_infix_script_iff {cluster : Cluster} {name script : String}
    (h : cluster.script? name = some script) :
    Text.placeMark <:+: script.toList ↔
      name = DataKey.configureIpfsScript ∧
        Text.placeMark <:+: Text.trimChars cluster.spec.ipfsStorage.toList := by
  rcases eq_of_script? h with ⟨hname, rfl⟩ | ⟨hname, rfl⟩
  · rw [placeMark_infix_configureIpfs_iff, and_iff_right hname]
  · exact iff_of_false placeMark_not_infix_entrypoint fun h => hname h.1

/-- The size is confined to its word exactly if it is a word when trimmed. -/
theorem confined_iff_isWord (cluster : Cluster) :
    cluster.Confined ↔ Shell.IsWord (Text.trimChars cluster.spec.ipfsStorage.toList) := by
  rw [← Shell.isWord_datastoreMax_iff]
  constructor
  · rintro ⟨⟨word, usual, hword, hscript, -⟩, -, -⟩
    rw [script?_configureIpfs, configureIpfs_eq, Option.some.injEq, String.append_left_inj,
      String.append_right_inj] at hscript
    rw [hscript]
    exact hword
  · intro hword
    have hsize := (Shell.isWord_datastoreMax_iff _).mp hword
    refine ⟨⟨_, Storage.datastoreMax cluster.withDefaults.spec.ipfsStorage, hword,
      congrArg some (configureIpfs_eq _), congrArg some (configureIpfs_eq _)⟩, ?_, ?_⟩
    · have hlines := lineCount_script (script?_configureIpfs cluster)
        (script?_configureIpfs cluster.withDefaults)
      rw [List.count_eq_zero_of_not_mem (hsize.notMem (by decide +kernel)), Nat.add_zero] at hlines
      exact congrArg some hlines
    · intro name script hscript hopen
      have hmark := ((placeMark_infix_script_iff hscript).mp hopen).2
      exact hsize.notMem (by decide +kernel) (hmark.subset List.mem_cons_self)

/-- How the size of the volumes stands in the scripts, whatever text it is. -/
structure ShowsSize (cluster : Cluster) : Prop where
  argument : cluster.script? DataKey.configureIpfsScript =
    some (beforeLimit ++ Storage.datastoreMax cluster.spec.ipfsStorage ++ afterLimit)
  usual : cluster.withDefaults.script? DataKey.configureIpfsScript =
    some (beforeLimit ++ "10GB" ++ afterLimit)
  command : limitCommand.toList ++ [' '] <:+ beforeLimit.toList
  ended : ['\n'] <+: afterLimit.toList
  others : ∀ name, name ≠ DataKey.configureIpfsScript →
    cluster.script? name = cluster.withDefaults.script? name
  kept : (Storage.datastoreMax cluster.spec.ipfsStorage).toList =
      Text.trimChars cluster.spec.ipfsStorage.toList ∨
    Shell.IsWord (Storage.datastoreMax cluster.spec.ipfsStorage).toList ∧
      Shell.IsWord (Text.trimChars cluster.spec.ipfsStorage.toList)
  lines : ∀ script usual, cluster.script? DataKey.configureIpfsScript = some script →
    cluster.withDefaults.script? DataKey.configureIpfsScript = some usual →
      lineCount script =
        lineCount usual + (Text.trimChars cluster.spec.ipfsStorage.toList).count '\n'
  places : ∀ name script, cluster.script? name = some script →
    (Text.placeMark <:+: script.toList ↔
      name = DataKey.configureIpfsScript ∧
        Text.placeMark <:+: Text.trimChars cluster.spec.ipfsStorage.toList)
  confined : cluster.Confined ↔ Shell.IsWord (Text.trimChars cluster.spec.ipfsStorage.toList)

/-- The size stands in one command of one script, trimmed and with the unit that a datastore knows;
only a size that is no word there can add lines, leave a place open or be more than an argument. -/
theorem showsSize (cluster : Cluster) : cluster.ShowsSize where
  argument := congrArg some (configureIpfs_eq _)
  usual := by
    have hdefault : Storage.datastoreMax ClusterSpec.default.ipfsStorage = "10GB" := by
      decide +kernel
    rw [script?_configureIpfs, configureIpfs_eq, withDefaults, hdefault]
  command := aroundLimit_spec.2.1
  ended := aroundLimit_spec.2.2.1
  others name hname := by
    simp only [script?, scriptsConfigMap, List.lookup_cons, beq_false_of_ne hname]
  kept := Shell.datastoreMax_eq_or_isWord _
  lines _ _ hscript husual := lineCount_script hscript husual
  places _ _ hscript := placeMark_infix_script_iff hscript
  confined := confined_iff_isWord cluster

/-- A declaration whose volumes have a size that is no quantity. -/
def injected : Json :=
  .obj [
    ("apiVersion", .str "cluster.ipfs.io/v1alpha1"),
    ("kind", .str "Ipfs"),
    ("metadata", .obj [("name", .str "ipfs"), ("namespace", .str "default")]),
    ("spec", .obj [
      ("clusterStorage", .str "5Gi"),
      ("ipfsStorage", .str "10Gi; reboot\n\x7b\x7b"),
      ("replicas", .int 1)])]

/-- A declaration is read whatever its size is, and so commands, lines and places come in. -/
theorem not_confined_injected :
    ∃ ipfs script usual, Resource.read .ipfs injected = .ok ipfs ∧ ¬(ofResource ipfs).Confined ∧
      (ofResource ipfs).script? DataKey.configureIpfsScript = some script ∧
        (ofResource ipfs).withDefaults.script? DataKey.configureIpfsScript = some usual ∧
          lineCount script ≠ lineCount usual ∧ Text.placeMark <:+: script.toList := by
  have hlines : 0 < (Text.trimChars
      (ofResource ⟨.ipfs, injected⟩).spec.ipfsStorage.toList).count '\n' := by
    decide +kernel
  refine ⟨⟨.ipfs, injected⟩, _, _, rfl, ?_, script?_configureIpfs _, script?_configureIpfs _,
    ?_, ?_⟩
  · rw [confined_iff_isWord]
    decide +kernel
  · rw [lineCount_script (script?_configureIpfs _) (script?_configureIpfs _)]
    omega
  · rw [placeMark_infix_script_iff (script?_configureIpfs _)]
    decide +kernel

end Cluster

end ClusterKeeper
