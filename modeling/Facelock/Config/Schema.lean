import Facelock.Config.Editor
import Mathlib.Data.List.Nodup

/-!
# The configuration in a document

`Config::parse` of `facelock-core/src/config.rs` reads the configuration
file as TOML and checks the values.  The `toml` crate is a parameter, a
reader of texts and a builder of tables.  Every key has its own check, so
the configuration is a list of keys: the section, the name, and the texts
that the key accepts.  The texts are those of `validate` and of the
enumerations.

What the key makes of a value that is not a string stays a parameter
`other`: the conversion of numbers, booleans and lists, and the ranges
that `validate` sets for them.  A key that holds a text takes a string
and nothing else.

`WellTyped.update` is the rule for an edit.  If one key gets a text
that it accepts and no path apart from it changes, the configuration
still parses.
-/

namespace Facelock.Config

open List

open Text (Str)
open Toml (Path Value Apart Reader Builder Sets Bare)

variable {S : Type}

/-! ## The keys -/

/-- A key of the configuration in its section.  `textOnly` is true for a
key that holds a string, and false for enumerations, which have other
forms too. -/
structure Field where
  name : String
  textOnly : Bool
  accepts : Str → Bool

structure Key extends Field where
  table : String

def Key.path (key : Key) : Path :=
  [key.table.toList, key.name.toList]

/-- The LED name in a `/sys/class/leds/<name>` path. -/
def ledClassName (spec : Str) : Option Str :=
  let root := "/sys/class/leds/".toList
  if root.isPrefixOf spec then
    let name := spec.drop root.length
    if name ≠ [] ∧ '/' ∉ name ∧ name ≠ ['.'] ∧ name ≠ ['.', '.'] then some name else none
  else none

def isHexDigit (c : Char) : Bool :=
  let n := c.toNat
  (48 ≤ n && n ≤ 57) || (65 ≤ n && n ≤ 70) || (97 ≤ n && n ≤ 102)

/-- A SHA256 in hex.  Hex digits are single bytes. -/
def isSha256Hex (value : Str) : Bool :=
  value.length == 64 && value.all isHexDigit

/-- A key with any text. -/
def textField (name : String) : Field :=
  ⟨name, true, fun _ => true⟩

/-- A key with a checked text. -/
def checkedField (name : String) (accepts : Str → Bool) : Field :=
  ⟨name, true, accepts⟩

/-- A key with an enumeration. -/
def enumField (name : String) (names : List String) : Field :=
  ⟨name, false, fun text => names.any fun variant => variant.toList == text⟩

/-- Keys that hold a number, a boolean or a list. -/
def otherFields (names : List String) : List Field :=
  names.map fun name => ⟨name, false, fun _ => false⟩

def methodField : Field :=
  enumField "method" ["none", "keyfile", "tpm"]

def keyPathField : Field :=
  textField "key_path"

def deviceFields : List Field :=
  [checkedField "path" fun text => !text.isEmpty,
   checkedField "ir_led" fun text => (ledClassName text).isSome] ++
  otherFields ["max_height", "rotation", "warmup_frames", "dark_threshold", "dark_pixel_value",
    "ir_emitter", "keep_format", "camera_release_secs", "camera_release_after_success_secs"]

def recognitionFields : List Field :=
  [textField "detector_model", checkedField "detector_sha256" isSha256Hex,
    textField "embedder_model",
   checkedField "embedder_sha256" isSha256Hex, textField "execution_provider"] ++
  otherFields ["threshold", "timeout_secs", "no_face_timeout_secs", "detection_confidence",
    "nms_threshold", "threads"]

def securityFields : List Field :=
  enumField "device_match_granularity" ["model", "unit"] ::
  otherFields ["disabled", "abort_if_ssh", "abort_if_lid_closed", "suppress_unknown", "require_ir",
    "require_frame_variance", "require_landmark_liveness", "landmark_displacement_px",
    "landmark_min_moving", "min_auth_frames", "ir_texture_min_stddev",
    "frame_variance_max_similarity", "bind_templates_to_device", "bind_legacy_templates",
    "allow_plaintext", "bind_device_aad"]

/-- The sections of `Config` and their fields. -/
def sections : List (String × List Field) :=
  [("device", deviceFields),
   ("recognition", recognitionFields),
   ("daemon",
    [textField "model_dir", enumField "mode" ["daemon", "oneshot"]] ++
      otherFields ["idle_timeout_secs"]),
   ("storage", [textField "db_path"]),
   ("security", securityFields),
   ("notification",
    [enumField "mode" ["off", "terminal", "desktop", "both"],
     enumField "notify_prompt" ["on", "off", "system"],
     enumField "notify_on_success" ["on", "off", "system"],
     enumField "notify_on_failure" ["on", "off", "system"]]),
   ("snapshots", [enumField "mode" ["off", "all", "failure", "success"], textField "dir"]),
   ("tpm", textField "tcti" :: otherFields ["seal_database", "pcr_binding", "pcr_indices"]),
   ("encryption", [methodField, keyPathField, textField "sealed_key_path"]),
   ("audit", textField "path" :: otherFields ["enabled", "rotate_size_mb"]),
   ("polkit", otherFields ["face_eligible_actions"]),
   ("pam", otherFields ["config_dirs"])]

def keys : List Key :=
  sections.flatMap fun entry => entry.2.map fun field => ⟨field, entry.1⟩

def rateLimit : Path :=
  ["security".toList, "rate_limit".toList]

def rateLimitKeys : List Path :=
  ["max_attempts", "window_secs"].map fun name => rateLimit ++ [name.toList]

def methodKey : Key :=
  ⟨methodField, "encryption"⟩

def keyPathKey : Key :=
  ⟨keyPathField, "encryption"⟩

def defaultEncryptionKeyPath : Str :=
  "/etc/facelock/encryption.key".toList

/-! ## Parsing -/

variable (other : Path → Value S → Bool)

/-- What the key makes of the value at its path. -/
def Key.holds (key : Key) : Option (Value S) → Bool
  | none => true
  | some (.string text) => key.accepts text
  | some value => !key.textOnly && other key.path value

def isTable : Option (Value S) → Bool
  | none | some (.table _) => true
  | _ => false

/-- The document has the types and the values of a `Config`. -/
def WellTyped (document : Value S) : Prop :=
  (∀ entry ∈ sections, isTable (document.get [entry.1.toList]) = true) ∧
    isTable (document.get rateLimit) = true ∧
    (∀ key ∈ keys, key.holds other (document.get key.path) = true) ∧
    ∀ path ∈ rateLimitKeys, (document.get path).all (other path) = true

instance (document : Value S) : Decidable (WellTyped other document) :=
  inferInstanceAs (Decidable (_ ∧ _))

/-- Parse config from a TOML string. -/
def parse (toml : Reader S) (builder : Builder S) (other : Path → Value S → Bool) (text : Str) :
    Option (Value S) :=
  ((toml.read text).bind builder.build).filter fun document => WellTyped other document

/-- The text that a key has, or its default. -/
def effective (default : Str) : Option (Value S) → Str
  | some (.string text) => text
  | _ => default

theorem parse_eq_some {toml builder other text} {document : Value S} :
    parse toml builder other text = some document ↔
      ∃ statements, toml.read text = some statements ∧ builder.build statements = some document ∧
        WellTyped other document := by
  rw [parse, Option.filter_eq_some_iff, Option.bind_eq_some_iff, decide_eq_true_eq]
  grind

/-! ## The paths of the keys -/

variable {key : Key}

theorem mem_keys :
    key ∈ keys ↔ ∃ entry ∈ sections, key.table = entry.1 ∧ key.toField ∈ entry.2 := by
  simp only [keys, mem_flatMap, mem_map]
  constructor
  · rintro ⟨entry, hentry, field, hfield, rfl⟩
    exact ⟨entry, hentry, rfl, hfield⟩
  · rintro ⟨entry, hentry, htable, hfield⟩
    exact ⟨entry, hentry, key.toField, hfield, by rw [← htable]⟩

theorem nodup_tables : (sections.map Prod.fst).Nodup := by decide +kernel

theorem nodup_names : ∀ entry ∈ sections, (entry.2.map Field.name).Nodup := by decide +kernel

theorem eq_of_path_eq {other} (hkey : key ∈ keys) (hother : other ∈ keys)
    (h : key.path = other.path) : key = other := by
  obtain ⟨entry, hentry, htable, hfield⟩ := mem_keys.mp hkey
  obtain ⟨entry', hentry', htable', hfield'⟩ := mem_keys.mp hother
  have hpath : key.table = other.table ∧ key.name = other.name := by
    simpa [Key.path, String.toList_inj] using h
  obtain rfl : entry = entry' := by
    refine inj_on_of_nodup_map nodup_tables hentry hentry' ?_
    rw [← htable, ← htable', hpath.1]
  have hsame : key.toField = other.toField :=
    inj_on_of_nodup_map (nodup_names entry hentry) hfield hfield' hpath.2
  cases key
  cases other
  simp_all

theorem bare_ofList {name} (chars : Str) (hname : name = String.ofList chars)
    (h : Bare chars) : Bare name.toList := by
  rwa [hname, String.toList_ofList]

theorem bare_of_mem_sections :
    ∀ entry ∈ sections, Bare entry.1.toList ∧ ∀ field ∈ entry.2, Bare field.name.toList := by
  simp only [sections, deviceFields, recognitionFields, securityFields, otherFields, textField,
    checkedField, enumField, methodField, keyPathField, map_cons, map_nil, cons_append,
    nil_append, forall_mem_cons, not_mem_nil, false_implies, implies_true, and_true]
  repeat' first
    | (refine bare_ofList _ rfl ?_; decide)
    | apply And.intro

theorem bare_of_mem_keys (h : key ∈ keys) : Bare key.table.toList ∧ Bare key.name.toList := by
  obtain ⟨entry, hentry, htable, hfield⟩ := mem_keys.mp h
  obtain ⟨hbare, hfields⟩ := bare_of_mem_sections entry hentry
  exact ⟨htable ▸ hbare, hfields _ hfield⟩

theorem rateLimit_notMem : ∀ entry ∈ sections, entry.1 = "security" →
    ∀ field ∈ entry.2, field.name ≠ "rate_limit" := by
  decide +kernel

theorem path_ne_rateLimit (h : key ∈ keys) : key.path ≠ rateLimit := by
  obtain ⟨entry, hentry, htable, hfield⟩ := mem_keys.mp h
  intro heq
  have hpath : key.table.toList = "security".toList ∧ key.name.toList = "rate_limit".toList := by
    simpa [Key.path, rateLimit] using heq
  rw [String.toList_inj, String.toList_inj] at hpath
  exact rateLimit_notMem entry hentry (htable ▸ hpath.1) _ hfield hpath.2

/-! ## An edit of one key -/

theorem apart_of_length_eq {p q} (hlength : p.length = q.length) (hne : p ≠ q) : Apart p q :=
  ⟨fun h => hne (h.eq_of_length hlength), fun h => hne (h.eq_of_length hlength.symm).symm⟩

theorem apart_table {table} (h : table ≠ key.table) : Apart [table.toList] key.path := by
  constructor
  · intro hprefix
    exact h (String.toList_inj.mp (cons_prefix_cons.mp hprefix).1)
  · intro hprefix
    have := hprefix.length_le
    simp [Key.path] at this

theorem apart_rateLimitKey (hkey : key ∈ keys) {path} (hpath : path ∈ rateLimitKeys) :
    Apart path key.path := by
  obtain ⟨name, -, rfl⟩ := mem_map.mp hpath
  constructor
  · intro hprefix
    have := hprefix.length_le
    simp [Key.path, rateLimit] at this
  · intro hprefix
    have hshort := prefix_of_prefix_length_le hprefix
      (prefix_append rateLimit [name.toList]) (by simp [Key.path, rateLimit])
    exact path_ne_rateLimit hkey (hshort.eq_of_length (by simp [Key.path, rateLimit]))

/-- A key that gets a text it accepts leaves the configuration well
typed. -/
theorem WellTyped.update {other} {document document' : Value S} {text}
    (h : WellTyped other document) (hkey : key ∈ keys) (haccepts : key.accepts text = true)
    (hsets : Sets key.path (.string text) document document') : WellTyped other document' := by
  obtain ⟨htables, hlimit, hkeys, hlimits⟩ := h
  refine ⟨?_, ?_, ?_, ?_⟩
  · intro entry hentry
    by_cases heq : entry.1 = key.table
    · obtain ⟨entries, htable⟩ := Toml.Value.get_table hsets.value
      rw [heq, htable]
      rfl
    · rw [hsets.others _ (apart_table heq)]
      exact htables entry hentry
  · rw [hsets.others rateLimit (apart_of_length_eq rfl (path_ne_rateLimit hkey).symm)]
    exact hlimit
  · intro field hfield
    by_cases heq : field.path = key.path
    · rw [eq_of_path_eq hfield hkey heq, hsets.value]
      exact haccepts
    · rw [hsets.others field.path (apart_of_length_eq rfl heq)]
      exact hkeys field hfield
  · intro path hpath
    rw [hsets.others _ (apart_rateLimitKey hkey hpath)]
    exact hlimits path hpath

end Facelock.Config
