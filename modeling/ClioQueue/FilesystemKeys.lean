/-
# The keys of operator labels

`filesystem_key` of `clio_relay/identifiers.py` as the text it returns.  SHA-256 is
a parameter, from a byte string to the 64 hexadecimal digits of its digest: no
function to so few digits is injective on all byte strings, so the injectivity that
a result needs is asked for the two byte strings that it hashes.
-/

import Mathlib.Data.List.OfFn
import ClioQueue.Identifiers
import ClioQueue.Wire.Sha256

namespace ClioQueue

/-- `_FILESYSTEM_KEY_DOMAIN`. -/
def matchesFilesystemKeyDomain (domain : String) : Bool :=
  match domain.toList with
  | [] => false
  | c :: cs =>
    ('a' ≤ c && c ≤ 'z') && decide (cs.length ≤ 63) &&
      cs.all (fun c => lowerAlnum c || c == '_' || c == '.' || c == '-')

/-- A domain that `_validate_filesystem_key_domain` accepts. -/
structure FilesystemKeyDomain where
  value : String
  valid : matchesFilesystemKeyDomain value = true

/-- An operator label: a non-empty text. -/
structure OperatorLabel where
  value : String
  nonempty : value ≠ ""

section

variable (sha256 : ByteArray → Fin 64 → Fin 16)

/-- `hexdigest`. -/
def hexdigest (material : ByteArray) : String :=
  String.ofList (List.ofFn fun i => (sha256 material i).val.digitChar)

/-- The `material` of `filesystem_key`. -/
def filesystemKeyMaterial (domain value : String) : ByteArray :=
  "clio-relay.fs-key.v2\x00".toUTF8 ++ domain.toUTF8 ++ "\x00".toUTF8 ++ value.toUTF8

/-- The text of a key. -/
def FilesystemKey.text : FilesystemKey → String
  | .plain value => value
  | .digest domain value =>
    filesystemKeyPrefix ++ hexdigest sha256 (filesystemKeyMaterial domain value)

/-- `filesystem_key`, with the check of its domain. -/
def filesystemKeyText (value domain : String) : Except RelayError String :=
  if matchesFilesystemKeyDomain domain then
    (filesystemKey value domain).map (FilesystemKey.text sha256)
  else .error (.value ("filesystem key domain must start with a lowercase letter and contain " ++
    "only lowercase ASCII letters, digits, dots, underscores, and hyphens"))

end

variable {sha256 : ByteArray → Fin 64 → Fin 16} {domain : String}

/-- An ASCII text has as many bytes as characters. -/
theorem utf8ByteSize_ofList {cs : List Char} (h : ∀ c ∈ cs, c.utf8Size = 1) :
    (String.ofList cs).utf8ByteSize = cs.length := by
  induction cs with
  | nil => rfl
  | cons c cs ih =>
    rw [String.ofList_cons, String.utf8ByteSize_append, String.utf8ByteSize_singleton,
      h c (.head _), ih fun d hd => h d (.tail _ hd),
      List.length_cons, Nat.add_comm]

theorem text_digest_eq (value : String) :
    (FilesystemKey.digest domain value).text sha256 = String.ofList ('k' :: '2' :: '-' ::
      List.ofFn fun i => (sha256 (filesystemKeyMaterial domain value) i).val.digitChar) := by
  rw [← String.toList_inj]
  simp [FilesystemKey.text, filesystemKeyPrefix, hexdigest]

/-- **A hashed key is a durable record id**, in the reserved name space. -/
theorem text_digest_valid (value : String) :
    isDurableRecordId ((FilesystemKey.digest domain value).text sha256) = true ∧
      startsWith ((FilesystemKey.digest domain value).text sha256) filesystemKeyPrefix = true := by
  have hchar : ∀ d : Fin 16, lowerAlnum d.val.digitChar = true ∧ d.val.digitChar.utf8Size = 1 := by
    decide
  have hsize := @utf8ByteSize_ofList ('k' :: '2' :: '-' ::
    List.ofFn fun i => (sha256 (filesystemKeyMaterial domain value) i).val.digitChar) (by
      simp only [List.mem_cons, List.mem_ofFn, forall_eq_or_imp, forall_exists_index,
        forall_apply_eq_imp_iff]
      exact ⟨rfl, rfl, rfl, fun i => (hchar _).2⟩)
  have hdev : ∀ name ∈ windowsReservedDeviceBasenames, name.toList.length ≤ 4 := by decide
  rw [text_digest_eq]
  refine ⟨?_, by simp [startsWith, filesystemKeyPrefix]⟩
  simp only [isDurableRecordId, Bool.and_eq_true, decide_eq_true_eq, Bool.not_eq_true',
    List.contains_eq_mem, decide_eq_false_iff_not]
  refine ⟨⟨?_, ?_⟩, fun hmem => ?_⟩
  · rw [hsize]
    simp [durableRecordIdMaxBytes]
  · simp [matchesDurableRecordId, hchar, show lowerAlnum 'k' = true from rfl,
      show lowerAlnum '2' = true from rfl]
  · have := hdev _ hmem
    simp at this

/-- The byte strings of two labels differ. -/
theorem filesystemKeyMaterial_inj {a b : String}
    (h : filesystemKeyMaterial domain a = filesystemKeyMaterial domain b) : a = b := by
  simpa [filesystemKeyMaterial, ByteArray.append_right_inj, String.toByteArray_inj] using h

/-- Two digests of one text have the same digits. -/
theorem hexdigest_inj {m n : ByteArray} (h : hexdigest sha256 m = hexdigest sha256 n) :
    sha256 m = sha256 n := by
  have hdig : ∀ d e : Fin 16, d.val.digitChar = e.val.digitChar → d = e := by decide
  funext i
  exact hdig _ _ (congrFun (List.ofFn_injective (String.ofList_injective h)) i)

/-- **Filesystem keys.**  In every domain a label has a key, which is a durable record id and
no device name; the label itself is kept exactly when it is a durable record id outside the
reserved name space; and two labels whose byte strings SHA-256 tells apart have two keys. -/
theorem filesystem_key_never_merges (sha256 : ByteArray → Fin 64 → Fin 16)
    (domain : FilesystemKeyDomain) :
    (∀ a : OperatorLabel, ∃ key, filesystemKeyText sha256 a.value domain.value = .ok key ∧
      isDurableRecordId key = true ∧ key ∉ windowsReservedDeviceBasenames ∧
      (filesystemKey a.value domain.value = .ok (.plain a.value) ∧ key = a.value ↔
        isDurableRecordId a.value = true ∧ startsWith a.value filesystemKeyPrefix = false)) ∧
    ∀ a b : OperatorLabel, a.value ≠ b.value →
      Set.InjOn sha256 {filesystemKeyMaterial domain.value a.value,
        filesystemKeyMaterial domain.value b.value} →
      filesystemKeyText sha256 a.value domain.value ≠
        filesystemKeyText sha256 b.value domain.value := by
  have hkey : ∀ a : OperatorLabel, filesystemKeyText sha256 a.value domain.value =
      .ok (if portablePassthroughKey a.value then a.value
        else (FilesystemKey.digest domain.value a.value).text sha256) := by
    intro a
    rw [filesystemKeyText, if_pos domain.valid, filesystemKey, if_neg a.nonempty]
    split_ifs <;> rfl
  have hpass : ∀ a, portablePassthroughKey a = true ↔
      isDurableRecordId a = true ∧ startsWith a filesystemKeyPrefix = false := by
    simp [portablePassthroughKey, and_comm]
  refine ⟨fun a => ⟨_, hkey a, ?_⟩, fun a b hne hsha h => hne ?_⟩
  · have hval : isDurableRecordId (if portablePassthroughKey a.value then a.value
        else (FilesystemKey.digest domain.value a.value).text sha256) = true := by
      split_ifs with h
      · exact ((hpass _).1 h).1
      · exact (text_digest_valid _).1
    refine ⟨hval, ?_, ?_⟩
    · simp only [isDurableRecordId, Bool.and_eq_true, Bool.not_eq_true'] at hval
      simpa using hval.2
    · rw [← hpass, filesystemKey, if_neg a.nonempty]
      split_ifs with h <;> simp [h]
  · rw [hkey a, hkey b, Except.ok.injEq] at h
    split_ifs at h with ha hb hb
    · exact h
    · have := ((hpass _).1 ha).2
      rw [h, (text_digest_valid _).2] at this
      cases this
    · have := ((hpass _).1 hb).2
      rw [← h, (text_digest_valid _).2] at this
      cases this
    · exact filesystemKeyMaterial_inj (hsha (.inl rfl) (.inr rfl)
        (hexdigest_inj ((String.append_right_inj _).1 h)))

/-- `hashlib.sha256`, as its hexadecimal digits. -/
def sha256Digits (material : ByteArray) (i : Fin 64) : Fin 16 :=
  let c := (Wire.Sha256.hexdigest material.data.toList).getD i '0'
  Fin.ofNat 16 (if c.toNat < 58 then c.toNat - 48 else c.toNat - 87)

/-- Two labels that are no record ids, hashed with SHA-256. -/
theorem filesystem_key_never_merges_sample :
    filesystemKeyText sha256Digits "a b" "jobs" ≠ filesystemKeyText sha256Digits "a:b" "jobs" := by
  refine (filesystem_key_never_merges sha256Digits ⟨"jobs", by decide⟩).2 ⟨"a b", by decide⟩
    ⟨"a:b", by decide⟩ (by decide) (Set.injOn_pair.2 fun hsame => ?_)
  have hdigit : sha256Digits (filesystemKeyMaterial "jobs" "a b") 0 ≠
      sha256Digits (filesystemKeyMaterial "jobs" "a:b") 0 := by decide +kernel
  exact absurd (congrFun hsame 0) hdigit

end ClioQueue
