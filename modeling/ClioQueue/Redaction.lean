/-
# Redaction

`sensitive_key`, `collect_sensitive_values`, `redact_sensitive_value` and `redact_sensitive_values`
of `clio_relay/redaction.py`, on JSON documents.

The value of a sensitive key is replaced as a whole, whatever it is; collected, and replaced in the
free strings of the document, is only what stands directly under a sensitive key.
-/

import Mathlib.Data.List.Dedup
import ClioQueue.Durable.Replacement
import ClioQueue.Json
import ClioQueue.Recovery.ErrorDetail

namespace ClioQueue

open Durable Recovery

/-! ### The program -/

/-- The names of `sensitive_key`. -/
def sensitiveNames : List String :=
  ["authorization", "credential", "credentials", "password", "private_key", "secret", "secret_key",
    "token"]

/-- `sensitive_key`. -/
def sensitiveKey [CaseFold] (key : String) : Bool :=
  let normalized := replaceAll ['.'] ['_'] (replaceAll ['-'] ['_']
    (CaseFold.casefold (stripChars Wire.isSpace key.toList)))
  sensitiveNames.any (fun name => name.toList = normalized) ||
    sensitiveNames.any fun name => ('_' :: name.toList).isSuffixOf normalized

mutual

/-- `collect_sensitive_values`: the additions to the set. -/
def collectSensitiveValues [CaseFold] : Json → List String
  | .obj fields => collectFields fields
  | .arr items => collectItems items
  | .null | .bool _ | .num .. | .str _ => []

/-- The loop over an object. -/
def collectFields [CaseFold] : List (String × Json) → List String
  | [] => []
  | (key, nested) :: fields =>
    (match sensitiveKey key, nested.nonemptyStr? with
      | true, some secret => [secret]
      | _, _ => collectSensitiveValues nested) ++ collectFields fields

/-- The loop over an array. -/
def collectItems [CaseFold] : List Json → List String
  | [] => []
  | item :: items => collectSensitiveValues item ++ collectItems items

end

/-- `"<redacted>"`. -/
def redactedMarker : List Char := fenced '<' '>' "redacted".toList

/-- `sorted(sensitive_values, key=len, reverse=True)`. -/
def longestFirst (secrets : List String) : List String :=
  secrets.insertionSort fun a b => b.length ≤ a.length

/-- The loop over the secrets in one string. -/
def replaceSecrets (secrets : List String) (text : String) : String :=
  String.ofList ((longestFirst secrets).foldl
    (fun text secret => replaceAll secret.toList redactedMarker text) text.toList)

mutual

/-- `redact_sensitive_value`. -/
def redactSensitiveValue [CaseFold] (secrets : List String) : Json → Json
  | .obj fields => .obj (redactFields secrets fields)
  | .arr items => .arr (redactItems secrets items)
  | .str text => .str (replaceSecrets secrets text)
  | .null => .null
  | .bool b => .bool b
  | .num n fraction => .num n fraction

/-- The entries of an object. -/
def redactFields [CaseFold] (secrets : List String) : List (String × Json) → List (String × Json)
  | [] => []
  | (key, nested) :: fields =>
    (key, if sensitiveKey key then .str (String.ofList redactedMarker)
      else redactSensitiveValue secrets nested) :: redactFields secrets fields

/-- The items of an array. -/
def redactItems [CaseFold] (secrets : List String) : List Json → List Json
  | [] => []
  | item :: items => redactSensitiveValue secrets item :: redactItems secrets items

end

/-- In which order the strings of a set come, each once. -/
structure SetOrder where
  iterate : List String → List String
  mem_iterate : ∀ {s : String} {added : List String}, s ∈ iterate added ↔ s ∈ added
  nodup_iterate : ∀ added, (iterate added).Nodup

/-- `redact_sensitive_values`. -/
def redactSensitiveValues [CaseFold] (order : SetOrder) (value : Json) : Json :=
  redactSensitiveValue (order.iterate (collectSensitiveValues value)) value

/-! ### What it is for -/

mutual

/-- The string values of a document, each with whether it stands at or below a sensitive key. -/
def stringsOf [CaseFold] (below : Bool) : Json → List (Bool × String)
  | .obj fields => stringsOfFields below fields
  | .arr items => stringsOfItems below items
  | .str text => [(below, text)]
  | .null | .bool _ | .num .. => []

/-- The string values of the entries of an object. -/
def stringsOfFields [CaseFold] (below : Bool) : List (String × Json) → List (Bool × String)
  | [] => []
  | (key, nested) :: fields =>
    stringsOf (below || sensitiveKey key) nested ++ stringsOfFields below fields

/-- The string values of the items of an array. -/
def stringsOfItems [CaseFold] (below : Bool) : List Json → List (Bool × String)
  | [] => []
  | item :: items => stringsOf below item ++ stringsOfItems below items

end

/-- The string stands directly under a sensitive key, somewhere in the document. -/
inductive DirectlyKeyed [CaseFold] : Json → String → Prop
  | here {fields : List (String × Json)} {key text : String} (hmem : (key, .str text) ∈ fields)
      (hkey : sensitiveKey key = true) : DirectlyKeyed (.obj fields) text
  | field {fields : List (String × Json)} {key text : String} {nested : Json}
      (hmem : (key, nested) ∈ fields) (h : DirectlyKeyed nested text) :
      DirectlyKeyed (.obj fields) text
  | item {items : List Json} {nested : Json} {text : String} (hmem : nested ∈ items)
      (h : DirectlyKeyed nested text) : DirectlyKeyed (.arr items) text

/-- The string stands at or below a sensitive key, but only deeper: in a list or an object there,
and directly under no sensitive key. -/
def OnlyDeeper [CaseFold] (document : Json) (text : String) : Prop :=
  (true, text) ∈ stringsOf false document ∧ ¬ DirectlyKeyed document text

/-- The secrets in question: not empty, without `<` and `>` and no part of `redacted`. -/
abbrev Hideable (secret : String) : Prop := Foreign '<' '>' "redacted".toList secret.toList

/-- No string value of what is returned holds a secret, and redacting it again changes nothing. -/
def LeavesNoSecret [CaseFold] (order again : SetOrder) (document : Json) : Prop :=
  (∀ secret, (true, secret) ∈ stringsOf false document → Hideable secret →
    ∀ text ∈ stringsOf false (redactSensitiveValues order document),
      ¬ secret.toList <:+: text.2.toList) ∧
  redactSensitiveValues again (redactSensitiveValues order document) =
    redactSensitiveValues order document

/-! ### Strings -/

variable {secret text : String} {secrets : List String}

/-- The replacements one after the other. -/
def replaceEach (secrets : List String) (text : List Char) : List Char :=
  secrets.foldl (fun text secret => replaceAll secret.toList redactedMarker text) text

theorem toList_replaceSecrets (secrets : List String) (text : String) :
    (replaceSecrets secrets text).toList = replaceEach (longestFirst secrets) text.toList :=
  String.toList_ofList

theorem Hideable.infix_of_replaceEach (h : Hideable secret) {text : List Char}
    (hpart : secret.toList <:+: replaceEach secrets text) : secret.toList <:+: text := by
  induction secrets generalizing text with
  | nil => exact hpart
  | cons other secrets ih => exact h.infix_of_replaceAll (ih hpart)

/-- **A secret that is replaced** is nowhere in the string. -/
theorem Hideable.not_infix_replaceSecrets (h : Hideable secret) (hmem : secret ∈ secrets)
    (text : String) : ¬ secret.toList <:+: (replaceSecrets secrets text).toList := by
  rw [toList_replaceSecrets]
  have hsort : secret ∈ longestFirst secrets := (List.mem_insertionSort _).2 hmem
  obtain ⟨_, _, hsplit⟩ := List.append_of_mem hsort
  rw [hsplit, replaceEach, List.foldl_append, List.foldl_cons]
  exact fun hpart => h.not_infix_replaceFrom 0 _ (h.infix_of_replaceEach hpart)

/-- Replacing the marker by itself changes nothing. -/
theorem replaceSecrets_marker (h : ∀ secret ∈ secrets, secret.toList = redactedMarker) :
    replaceSecrets secrets text = text := by
  have hsort : ∀ secret ∈ longestFirst secrets, secret.toList = redactedMarker :=
    fun secret hmem => h secret ((List.mem_insertionSort _).1 hmem)
  rw [← String.toList_inj, toList_replaceSecrets]
  generalize longestFirst secrets = secrets at hsort
  induction secrets with
  | nil => rfl
  | cons other secrets ih =>
    have hself : replaceAll other.toList redactedMarker text.toList = text.toList := by
      rw [hsort other List.mem_cons_self]
      exact replaceFrom_self _ _ (by decide) 0
    rw [replaceEach, List.foldl_cons, hself]
    exact ih fun secret hmem => hsort secret (.tail _ hmem)

/-- A string that holds no secret stays as it is. -/
theorem replaceSecrets_of_free (h : ∀ secret ∈ secrets, ¬ secret.toList <:+: text.toList) :
    replaceSecrets secrets text = text := by
  have hsort : ∀ secret ∈ longestFirst secrets, ¬ secret.toList <:+: text.toList :=
    fun secret hmem => h secret ((List.mem_insertionSort _).1 hmem)
  rw [← String.toList_inj, toList_replaceSecrets]
  generalize longestFirst secrets = secrets at hsort
  induction secrets with
  | nil => rfl
  | cons other secrets ih =>
    rw [replaceEach, List.foldl_cons, replaceAll_of_not_infix (hsort other (.head _))]
    exact ih fun secret hmem => hsort secret (.tail _ hmem)

/-! ### Documents -/

variable [CaseFold] {P : String → Prop}

theorem mem_collectItems {items : List Json} :
    secret ∈ collectItems items ↔ ∃ item ∈ items, secret ∈ collectSensitiveValues item := by
  induction items with
  | nil => simp [collectItems]
  | cons item items ih => simp [collectItems, ih]

/-- A string is collected from an object if it stands directly under a sensitive key or is collected
from the value of some key. -/
theorem mem_collectFields {fields : List (String × Json)} :
    secret ∈ collectFields fields ↔ ∃ key nested, (key, nested) ∈ fields ∧
      (sensitiveKey key = true ∧ nested = .str secret ∧ secret ≠ "" ∨
        secret ∈ collectSensitiveValues nested) := by
  induction fields with
  | nil => simp [collectFields]
  | cons field fields ih =>
    obtain ⟨key, nested⟩ := field
    have hfirst : secret ∈ (match sensitiveKey key, nested.nonemptyStr? with
          | true, some found => [found]
          | _, _ => collectSensitiveValues nested) ↔
        sensitiveKey key = true ∧ nested = .str secret ∧ secret ≠ "" ∨
          secret ∈ collectSensitiveValues nested := by
      rcases sensitiveKey key with _ | _
      · simp
      · cases nested with
        | str found =>
          by_cases hempty : found = ""
          · simp only [Json.nonemptyStr?, hempty, collectSensitiveValues, Json.str.injEq]
            simp
          · simp only [Json.nonemptyStr?, hempty, collectSensitiveValues, Json.str.injEq]
            simp
            grind
        | _ => simp [Json.nonemptyStr?]
    rw [collectFields, List.mem_append, hfirst, ih]
    constructor
    · rintro (hhere | ⟨_, _, hmem, hlater⟩)
      · exact ⟨key, nested, .head _, hhere⟩
      · exact ⟨_, _, .tail _ hmem, hlater⟩
    · rintro ⟨_, _, hmem, hfound⟩
      rcases List.mem_cons.1 hmem with heq | hmem
      · cases heq
        exact .inl hfound
      · exact .inr ⟨_, _, hmem, hfound⟩

omit [CaseFold] in
theorem sizeOf_lt_arr {items : List Json} {item : Json} (h : item ∈ items) :
    sizeOf item < sizeOf (Json.arr items) := by
  have hlt := List.sizeOf_lt_of_mem h
  rw [Json.arr.sizeOf_spec]
  omega

omit [CaseFold] in
theorem sizeOf_lt_obj {fields : List (String × Json)} {key : String} {nested : Json}
    (h : (key, nested) ∈ fields) : sizeOf nested < sizeOf (Json.obj fields) := by
  have hlt := List.sizeOf_lt_of_mem h
  rw [Prod.mk.sizeOf_spec] at hlt
  rw [Json.obj.sizeOf_spec]
  omega

/-- **What is collected** is what stands directly under a sensitive key and is not empty. -/
theorem mem_collectSensitiveValues : ∀ {value : Json} {secret : String},
    secret ∈ collectSensitiveValues value ↔ DirectlyKeyed value secret ∧ secret ≠ ""
  | .null, _ | .bool _, _ | .num .., _ | .str _, _ => ⟨nofun, nofun⟩
  | .arr items, _ => by
      rw [collectSensitiveValues, mem_collectItems]
      constructor
      · rintro ⟨item, hitem, hmem⟩
        have hkeyed := mem_collectSensitiveValues.1 hmem
        exact ⟨.item hitem hkeyed.1, hkeyed.2⟩
      · rintro ⟨hkeyed, hne⟩
        cases hkeyed with
        | item hitem h => exact ⟨_, hitem, mem_collectSensitiveValues.2 ⟨h, hne⟩⟩
  | .obj fields, _ => by
      rw [collectSensitiveValues, mem_collectFields]
      constructor
      · rintro ⟨key, nested, hfield, ⟨hkey, rfl, hne⟩ | hmem⟩
        · exact ⟨.here hfield hkey, hne⟩
        · have hkeyed := mem_collectSensitiveValues.1 hmem
          exact ⟨.field hfield hkeyed.1, hkeyed.2⟩
      · rintro ⟨hkeyed, hne⟩
        cases hkeyed with
        | here hfield hkey => exact ⟨_, _, hfield, .inl ⟨hkey, rfl, hne⟩⟩
        | field hfield h =>
          exact ⟨_, _, hfield, .inr (mem_collectSensitiveValues.2 ⟨h, hne⟩)⟩
termination_by value _ => sizeOf value
decreasing_by
  · exact sizeOf_lt_arr hitem
  · exact sizeOf_lt_arr hitem
  · exact sizeOf_lt_obj hfield
  · exact sizeOf_lt_obj hfield

mutual

/-- Below a sensitive key everything stands below one. -/
theorem below_of_mem_stringsOf : ∀ {value : Json}, ∀ e ∈ stringsOf true value, e.1 = true
  | .null | .bool _ | .num .. => nofun
  | .str _ => by simp [stringsOf]
  | .arr _ => below_of_mem_stringsOfItems
  | .obj _ => below_of_mem_stringsOfFields

theorem below_of_mem_stringsOfItems :
    ∀ {items : List Json}, ∀ e ∈ stringsOfItems true items, e.1 = true
  | [] => nofun
  | _ :: _ => List.forall_mem_append.2 ⟨below_of_mem_stringsOf, below_of_mem_stringsOfItems⟩

theorem below_of_mem_stringsOfFields :
    ∀ {fields : List (String × Json)}, ∀ e ∈ stringsOfFields true fields, e.1 = true
  | [] => nofun
  | _ :: _ => List.forall_mem_append.2 ⟨below_of_mem_stringsOf, below_of_mem_stringsOfFields⟩

end

mutual

/-- **The strings of a redacted document**: the marker and the free strings, replaced. -/
theorem forall_stringsOf_redact (hmarker : P (String.ofList redactedMarker)) (below : Bool) :
    ∀ value : Json, (∀ e ∈ stringsOf below (redactSensitiveValue secrets value), P e.2) ↔
      ∀ text, (false, text) ∈ stringsOf false value → P (replaceSecrets secrets text)
  | .null | .bool _ | .num .. => by simp [redactSensitiveValue, stringsOf]
  | .str _ => by simp [redactSensitiveValue, stringsOf]
  | .arr items => by
      simp only [redactSensitiveValue, stringsOf]
      exact forall_stringsOfItems_redact hmarker below items
  | .obj fields => by
      simp only [redactSensitiveValue, stringsOf]
      exact forall_stringsOfFields_redact hmarker below fields

theorem forall_stringsOfItems_redact (hmarker : P (String.ofList redactedMarker)) (below : Bool) :
    ∀ items : List Json, (∀ e ∈ stringsOfItems below (redactItems secrets items), P e.2) ↔
      ∀ text, (false, text) ∈ stringsOfItems false items → P (replaceSecrets secrets text)
  | [] => by simp [redactItems, stringsOfItems]
  | item :: items => by
      simp only [redactItems, stringsOfItems, List.mem_append, or_imp,
        forall_and, forall_stringsOf_redact hmarker below item,
        forall_stringsOfItems_redact hmarker below items]

theorem forall_stringsOfFields_redact (hmarker : P (String.ofList redactedMarker)) (below : Bool) :
    ∀ fields : List (String × Json),
      (∀ e ∈ stringsOfFields below (redactFields secrets fields), P e.2) ↔
        ∀ text, (false, text) ∈ stringsOfFields false fields → P (replaceSecrets secrets text)
  | [] => by simp [redactFields, stringsOfFields]
  | (key, nested) :: fields => by
      simp only [redactFields, stringsOfFields, List.mem_append, or_imp,
        forall_and, forall_stringsOfFields_redact hmarker below fields, Bool.false_or]
      refine and_congr_left fun _ => ?_
      by_cases hkey : sensitiveKey key = true
      · rw [if_pos hkey, hkey, Bool.or_true]
        constructor
        · intro _ text htext
          cases below_of_mem_stringsOf _ htext
        · intro _ e he
          rw [List.mem_singleton.1 he]
          exact hmarker
      · rw [if_neg hkey, Bool.eq_false_of_not_eq_true hkey, Bool.or_false]
        exact forall_stringsOf_redact hmarker below nested

end

mutual

/-- **What is collected from a redacted document** is the marker. -/
theorem collect_redact : ∀ (value : Json),
    ∀ secret ∈ collectSensitiveValues (redactSensitiveValue secrets value),
      secret.toList = redactedMarker
  | .null | .bool _ | .num .. | .str _ => nofun
  | .arr items => collectItems_redact items
  | .obj fields => collectFields_redact fields

theorem collectItems_redact : ∀ (items : List Json),
    ∀ secret ∈ collectItems (redactItems secrets items), secret.toList = redactedMarker
  | [] => nofun
  | item :: items => List.forall_mem_append.2 ⟨collect_redact item, collectItems_redact items⟩

theorem collectFields_redact : ∀ (fields : List (String × Json)),
    ∀ secret ∈ collectFields (redactFields secrets fields), secret.toList = redactedMarker
  | [] => nofun
  | (key, nested) :: fields => by
      refine List.forall_mem_append.2 ⟨?_, collectFields_redact fields⟩
      by_cases hkey : sensitiveKey key = true
      · rw [if_pos hkey, hkey]
        intro secret hmem
        rw [List.mem_singleton.1 hmem]
        exact String.toList_ofList
      · rw [if_neg hkey, Bool.eq_false_of_not_eq_true hkey]
        exact collect_redact nested

end

mutual

/-- **Redacting again**, with nothing but the marker collected, changes nothing. -/
theorem redact_redact {again : List String} (h : ∀ secret ∈ again, secret.toList = redactedMarker) :
    ∀ value : Json, redactSensitiveValue again (redactSensitiveValue secrets value) =
      redactSensitiveValue secrets value
  | .null | .bool _ | .num .. => rfl
  | .str _ => congrArg Json.str (replaceSecrets_marker h)
  | .arr items => congrArg Json.arr (redactItems_redact h items)
  | .obj fields => congrArg Json.obj (redactFields_redact h fields)

theorem redactItems_redact {again : List String}
    (h : ∀ secret ∈ again, secret.toList = redactedMarker) : ∀ items : List Json,
    redactItems again (redactItems secrets items) = redactItems secrets items
  | [] => rfl
  | item :: items => congrArg₂ List.cons (redact_redact h item) (redactItems_redact h items)

theorem redactFields_redact {again : List String}
    (h : ∀ secret ∈ again, secret.toList = redactedMarker) : ∀ fields : List (String × Json),
    redactFields again (redactFields secrets fields) = redactFields secrets fields
  | [] => rfl
  | (key, nested) :: fields => by
      simp only [redactFields]
      rw [redactFields_redact h fields]
      by_cases hkey : sensitiveKey key = true
      · rw [if_pos hkey, if_pos hkey]
      · rw [if_neg hkey, if_neg hkey, redact_redact h nested]

end

/-- **Redaction leaves no secret where no free string holds one that stands only deeper**: every
other secret is collected.  Such a secret may be gone from a free string by chance, when the
replacement of a directly keyed one cuts it; where no directly keyed one is part of the string, it
stays. -/
theorem redaction_leaves_no_secret (order again : SetOrder) (document : Json) :
    ((∀ secret, OnlyDeeper document secret → Hideable secret →
        ∀ text, (false, text) ∈ stringsOf false document → ¬ secret.toList <:+: text.toList) →
      LeavesNoSecret order again document) ∧
    (LeavesNoSecret order again document →
      ∀ secret, OnlyDeeper document secret → Hideable secret →
        ∀ text, (false, text) ∈ stringsOf false document → secret.toList <:+: text.toList →
          ∃ keyed, DirectlyKeyed document keyed ∧ keyed.toList <:+: text.toList) := by
  have hstrings : ∀ secret, Hideable secret →
      ((∀ text ∈ stringsOf false (redactSensitiveValues order document),
        ¬ secret.toList <:+: text.2.toList) ↔ _) := fun secret h =>
    forall_stringsOf_redact (P := fun text => ¬ secret.toList <:+: text.toList)
      (by rw [String.toList_ofList]; exact h.not_infix) false document
  constructor
  · intro hdeep
    refine ⟨fun secret hsecret h => (hstrings secret h).2 fun text htext => ?_, ?_⟩
    · by_cases hkeyed : DirectlyKeyed document secret
      · have hcoll := mem_collectSensitiveValues.2 ⟨hkeyed, fun hempty => h.ne_nil (by simp [hempty])⟩
        exact Hideable.not_infix_replaceSecrets h (order.mem_iterate.2 hcoll) text
      · refine fun hpart => hdeep secret ⟨hsecret, hkeyed⟩ h text htext ?_
        rw [toList_replaceSecrets] at hpart
        exact h.infix_of_replaceEach hpart
    · exact redact_redact (fun secret hmem => collect_redact document secret
        (again.mem_iterate.1 hmem)) document
  · rintro ⟨hleaves, -⟩ secret ⟨hsecret, -⟩ h text htext hpart
    by_contra hnone
    refine (hstrings secret h).1 (hleaves secret hsecret h) text htext ?_
    have hnotkeyed : ∀ keyed ∈ order.iterate (collectSensitiveValues document),
        ¬ keyed.toList <:+: text.toList := fun keyed hmem hkeyed =>
      hnone ⟨keyed, (mem_collectSensitiveValues.1 (order.mem_iterate.1 hmem)).1, hkeyed⟩
    rwa [replaceSecrets_of_free hnotkeyed]

/-- The order of last addition. -/
def additionOrder : SetOrder where
  iterate := List.dedup
  mem_iterate := List.mem_dedup
  nodup_iterate := List.nodup_dedup

/-- A token in a list, and in a message. -/
def listedToken : Json := .obj [("token", .arr [.str "abc"]), ("message", .str "abc")]

omit [CaseFold] in
/-- **A token in a list stays in the message.** -/
theorem listed_token_stays :
    ¬ @LeavesNoSecret ⟨fun text => text.map Char.toLower⟩ additionOrder additionOrder
      listedToken := by
  rintro ⟨hleaves, -⟩
  refine hleaves "abc" (by decide) ⟨by decide, by decide, by decide, by decide⟩ (false, "abc")
    (by decide) (List.infix_refl _)

end ClioQueue
