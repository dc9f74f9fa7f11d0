import ListKeeper.Config.Environment
import ListKeeper.Proofs.Config

/-!
This module contains that settings made by environment variables are those of the document that
gives the same values and leaves everything else out, and when there are such settings.
-/

namespace ListKeeper

namespace Json

def present (fields : List (String × Option Json)) : List (String × Json) :=
  fields.filterMap fun (key, o) => o.map fun v => (key, v)

def part (fields : List (String × Option Json)) : Option Json :=
  if (present fields).isEmpty then none else some (.obj (present fields))

def Slot.ofOption : Option Json → Slot
  | some v => .given v
  | none => .omitted

variable {fields : List (String × Option Json)}

theorem keys_present_sublist (fields : List (String × Option Json)) :
    ((present fields).map (·.1)).Sublist (fields.map (·.1)) := by
  induction fields with
  | nil => exact List.Sublist.refl _
  | cons field rest ih =>
    obtain ⟨key, _ | v⟩ := field
    · exact ih.cons key
    · exact ih.cons_cons key

theorem slotOf_present_of_notMem {key : String} (h : key ∉ fields.map (·.1)) :
    slotOf (present fields) key = .omitted := by
  have habsent : (present fields).lookup key = none := by
    rw [List.lookup_eq_none_iff]
    intro field hfield
    have hkey := (keys_present_sublist fields).subset (List.mem_map_of_mem hfield)
    rw [bne_iff_ne]
    intro hsame
    rw [← hsame] at hkey
    exact h hkey
  unfold slotOf
  rw [habsent]

theorem slotOf_present (hkeys : (fields.map (·.1)).Nodup) {key : String} {o : Option Json}
    (hfield : (key, o) ∈ fields) : slotOf (present fields) key = .ofOption o := by
  induction fields with
  | nil => cases hfield
  | cons field rest ih =>
    obtain ⟨key', o'⟩ := field
    rw [List.map_cons, List.nodup_cons] at hkeys
    rcases List.mem_cons.1 hfield with heq | hrest
    · cases heq
      cases o with
      | some v => exact slotOf_self key v _
      | none =>
        show slotOf (present rest) key = .omitted
        exact slotOf_present_of_notMem hkeys.1
    · have hne : key ≠ key' := by
        rintro rfl
        exact hkeys.1 (List.mem_map.2 ⟨_, hrest, rfl⟩)
      cases o' with
      | some v => exact (slotOf_of_ne hne v _).trans (ih hkeys.2 hrest)
      | none => exact ih hkeys.2 hrest

theorem record?_present (names : List String) (hkeys : (fields.map (·.1)).Nodup) :
    record? names (.obj (present fields)) = some (slotOf (present fields)) :=
  record?_obj names ((keys_present_sublist fields).nodup hkeys)

theorem orElse_ofOption {read : Json → Option β} {write : α → Json} {f : α → β}
    (hread : ∀ a, read (write a) = some (f a)) (o : Option α) (b : β) :
    (Slot.ofOption (o.map write)).orElse read b = some ((o.map f).getD b) := by
  cases o with
  | none => rfl
  | some a => exact hread a

theorem orElse_part {read : Json → Option α} {a b : α}
    (hread : read (.obj (present fields)) = some a) (hempty : read (.obj []) = some b) :
    (Slot.ofOption (part fields)).orElse read b = some a := by
  unfold part
  cases hfields : present fields with
  | nil =>
    rw [hfields, hempty] at hread
    exact hread
  | cons field rest =>
    rw [hfields] at hread
    exact hread

theorem sound_present (h : ∀ field ∈ fields, ∀ v ∈ field.2, v.Sound) :
    (Json.obj (present fields)).Sound := by
  apply Sound.obj
  intro field hfield
  obtain ⟨⟨key, o⟩, hmem, ho⟩ := List.mem_filterMap.1 hfield
  obtain ⟨v, hv, rfl⟩ := Option.map_eq_some_iff.1 ho
  exact h _ hmem v hv

theorem sound_map {write : α → Json} (h : ∀ a, (write a).Sound) (o : Option α) :
    ∀ v ∈ o.map write, v.Sound := by
  intro v hv
  obtain ⟨a, _, rfl⟩ := Option.map_eq_some_iff.1 hv
  exact h a

theorem sound_part (h : ∀ field ∈ fields, ∀ v ∈ field.2, v.Sound) :
    ∀ v ∈ part fields, v.Sound := by
  intro v hv
  unfold part at hv
  split at hv
  · cases hv
  · cases hv
    exact sound_present h

end Json

namespace Config

open Text

def Decimal (cs : List Char) (n : Nat) : Prop :=
  ∃ ds, (cs = ds ∨ cs = '+' :: ds) ∧ ds ≠ [] ∧ (∀ c ∈ ds, c.isDigit = true) ∧ digitsValue ds = n

def Boolean (cs : List Char) (b : Bool) : Prop :=
  cs = (if b then "true" else "false").toList

theorem parseNat?_eq_some_iff {cs : List Char} {n : Nat} :
    parseNat? cs = some n ↔ Decimal cs n := by
  have hdigits (ds : List Char) :
      (if !ds.isEmpty && ds.all Char.isDigit then some (digitsValue ds) else none) = some n ↔
        ds ≠ [] ∧ (∀ c ∈ ds, c.isDigit = true) ∧ digitsValue ds = n := by
    simp [and_assoc]
  unfold parseNat? Decimal
  rw [hdigits]
  split
  · next rest =>
    constructor
    · intro h
      exact ⟨rest, .inr rfl, h⟩
    · rintro ⟨ds, rfl | hds, h⟩
      · -- A sign is no digit.
        have hsign := h.2.1 '+' List.mem_cons_self
        contradiction
      · rw [(List.cons.inj hds).2]
        exact h
  · next hsign =>
    constructor
    · intro h
      exact ⟨cs, .inl rfl, h⟩
    · rintro ⟨ds, rfl | rfl, h⟩
      · exact h
      · exact absurd rfl (hsign ds)

theorem parseNat?_bind_eq_some_iff {size : Nat} {ofNat : Nat → α} {toNat : α → Nat}
    (htoNat : ∀ n < size, toNat (ofNat n) = n) (hofNat : ∀ x, ofNat (toNat x) = x)
    (hlt : ∀ x, toNat x < size) {cs : List Char} {x : α} :
    ((parseNat? cs).bind fun n => if n < size then some (ofNat n) else none) = some x ↔
      Decimal cs (toNat x) := by
  rw [← parseNat?_eq_some_iff]
  cases parseNat? cs with
  | none => simp
  | some n =>
    rw [Option.bind_some, Option.some.injEq]
    constructor
    · intro h
      split at h
      · next hn =>
        cases h
        exact (htoNat n hn).symm
      · cases h
    · rintro rfl
      rw [if_pos (hlt x), hofNat]

theorem parseWord64?_eq_some_iff {cs : List Char} {x : UInt64} :
    parseWord64? cs = some x ↔ Decimal cs x.toNat :=
  parseNat?_bind_eq_some_iff (fun _ => UInt64.toNat_ofNat_of_lt') (fun _ => UInt64.ofNat_toNat)
    UInt64.toNat_lt_size

theorem parseWord32?_eq_some_iff {cs : List Char} {x : UInt32} :
    parseWord32? cs = some x ↔ Decimal cs x.toNat :=
  parseNat?_bind_eq_some_iff (fun _ => UInt32.toNat_ofNat_of_lt') (fun _ => UInt32.ofNat_toNat)
    UInt32.toNat_lt_size

theorem parseBool?_eq_some_iff {cs : List Char} {b : Bool} :
    parseBool? cs = some b ↔ Boolean cs b := by
  have hne : "false".toList ≠ "true".toList := by decide
  unfold parseBool? Boolean
  constructor
  · intro h
    split at h
    · next htrue =>
      cases h
      exact htrue
    · split at h
      · next hfalse =>
        cases h
        exact hfalse
      · cases h
  · rintro rfl
    cases b with
    | true => exact if_pos rfl
    | false => exact (if_neg hne).trans (if_pos rfl)

def Sets (env : Environment) (key : String) (means : List Char → α → Prop) : Option α → Prop
  | none => env key = none
  | some a => ∃ text, env key = some text ∧ means (trim text.toList) a

section Setting

variable {env : Environment} {key : String} {means : List Char → α → Prop} {o : Option α}
variable {parse : List Char → Option β} {f : α → β}

theorem setting_of_sets (h : Sets env key means o)
    (hparse : ∀ cs a, means cs a → parse cs = some (f a)) (b : β) :
    setting env key parse b = .ok ((o.map f).getD b) := by
  unfold setting
  cases o with
  | none =>
    rw [show env key = none from h]
    rfl
  | some a =>
    obtain ⟨text, htext, hmeans⟩ := h
    simp only [htext, hparse _ a hmeans]
    rfl

theorem exists_sets_of_setting {b c : β} (h : setting env key parse b = .ok c)
    (hparse : ∀ cs c, parse cs = some c → ∃ a, means cs a) : ∃ o, Sets env key means o := by
  unfold setting at h
  split at h
  · next hunset => exact ⟨none, hunset⟩
  · next text hset =>
    split at h
    · next c hc =>
      obtain ⟨a, ha⟩ := hparse _ c hc
      exact ⟨some a, text, hset, ha⟩
    · cases h

theorem exists_reason_of_setting {b : β} {e : Error} (h : setting env key parse b = .error e) :
    ∃ reason, e = .invalidConfig reason := by
  unfold setting at h
  split at h
  · cases h
  · split at h
    · cases h
    · cases h
      exact ⟨_, rfl⟩

end Setting

structure MadeFrom (env : Environment) (c : Config) : Prop where
  maxConcurrent : setting env "PRIORIS_MAX_CONCURRENT_OPERATIONS" parseWord64?
    initial.queue.maxConcurrent = .ok c.queue.maxConcurrent
  maxRetries : setting env "PRIORIS_MAX_RETRIES" parseWord32? initial.queue.maxRetries =
    .ok c.queue.maxRetries
  retryDelay : setting env "PRIORIS_RETRY_DELAY_MS"
    (fun cs => (parseWord64? cs).map fun ms => Duration.ofMillis ms.toNat)
    initial.queue.retryDelay = .ok c.queue.retryDelay
  maxHistory : c.queue.maxHistory = initial.queue.maxHistory
  verifyWrites : setting env "PRIORIS_VERIFY_WRITES" parseBool? initial.keeper.verifyWrites =
    .ok c.keeper.verifyWrites
  reload : c.keeper.reloadAfterClearRollback = initial.keeper.reloadAfterClearRollback
  backend : c.backend = (env "PRIORIS_BACKEND").getD initial.backend
  dataPath : c.dataPath = env "PRIORIS_DATA_PATH"

theorem MadeFrom.ofEnvironment_eq {env : Environment} {c : Config} (h : MadeFrom env c) :
    ofEnvironment env = c.validate.map fun _ => c := by
  have hconfig : (⟨⟨c.queue.maxConcurrent, c.queue.maxRetries, c.queue.retryDelay,
      initial.queue.maxHistory⟩, ⟨c.keeper.verifyWrites, initial.keeper.reloadAfterClearRollback⟩,
      (env "PRIORIS_BACKEND").getD initial.backend, env "PRIORIS_DATA_PATH"⟩ : Config) = c := by
    rw [← h.maxHistory, ← h.reload, ← h.backend, ← h.dataPath]
  have hvalidated (d : Config) (hd : d = c) :
      (d.validate >>= fun _ => pure d : Except Error Config) = c.validate.map fun _ => c := by
    subst hd
    cases d.validate with
    | error e => rfl
    | ok _ => rfl
  unfold ofEnvironment
  rw [h.maxConcurrent, h.maxRetries, h.retryDelay, h.verifyWrites]
  exact hvalidated _ hconfig

theorem exists_madeFrom_or_refused (env : Environment) :
    (∃ c, MadeFrom env c) ∨ ∃ reason, ofEnvironment env = .error (.invalidConfig reason) := by
  unfold ofEnvironment
  rcases hmaxConcurrent : setting env "PRIORIS_MAX_CONCURRENT_OPERATIONS" parseWord64?
    initial.queue.maxConcurrent with e | maxConcurrent
  · obtain ⟨reason, rfl⟩ := exists_reason_of_setting hmaxConcurrent
    exact .inr ⟨reason, rfl⟩
  rcases hmaxRetries : setting env "PRIORIS_MAX_RETRIES" parseWord32?
    initial.queue.maxRetries with e | maxRetries
  · obtain ⟨reason, rfl⟩ := exists_reason_of_setting hmaxRetries
    exact .inr ⟨reason, rfl⟩
  generalize hretryDelay : setting env "PRIORIS_RETRY_DELAY_MS" _ initial.queue.retryDelay = delay
  rcases delay with e | retryDelay
  · obtain ⟨reason, rfl⟩ := exists_reason_of_setting hretryDelay
    exact .inr ⟨reason, rfl⟩
  rcases hverifyWrites : setting env "PRIORIS_VERIFY_WRITES" parseBool?
    initial.keeper.verifyWrites with e | verifyWrites
  · obtain ⟨reason, rfl⟩ := exists_reason_of_setting hverifyWrites
    exact .inr ⟨reason, rfl⟩
  exact .inl ⟨⟨⟨maxConcurrent, maxRetries, retryDelay, _⟩, ⟨verifyWrites, _⟩, _, _⟩,
    hmaxConcurrent, hmaxRetries, hretryDelay, rfl, hverifyWrites, rfl, rfl, rfl⟩

theorem exists_reason_of_validate {c : Config} (h : c.validate ≠ .ok ()) :
    ∃ reason, (c.validate.map fun _ => c) = .error (.invalidConfig reason) := by
  obtain ⟨reason, hreason⟩ := c.validate_cases.resolve_left h
  refine ⟨reason, ?_⟩
  rw [hreason]
  rfl

structure Overrides where
  maxConcurrent : Option UInt64
  maxRetries : Option UInt32
  retryDelay : Option UInt64
  verifyWrites : Option Bool
  backend : Option String
  dataPath : Option String
deriving DecidableEq, Repr

namespace Overrides

structure GivenBy (o : Overrides) (env : Environment) : Prop where
  maxConcurrent : Sets env "PRIORIS_MAX_CONCURRENT_OPERATIONS" (fun cs n => Decimal cs n.toNat)
    o.maxConcurrent
  maxRetries : Sets env "PRIORIS_MAX_RETRIES" (fun cs n => Decimal cs n.toNat) o.maxRetries
  retryDelay : Sets env "PRIORIS_RETRY_DELAY_MS" (fun cs n => Decimal cs n.toNat) o.retryDelay
  verifyWrites : Sets env "PRIORIS_VERIFY_WRITES" Boolean o.verifyWrites
  backend : env "PRIORIS_BACKEND" = o.backend
  dataPath : env "PRIORIS_DATA_PATH" = o.dataPath

def config (o : Overrides) : Config where
  queue := { QueueConfig.initial with
    maxConcurrent := o.maxConcurrent.getD QueueConfig.initial.maxConcurrent
    maxRetries := o.maxRetries.getD QueueConfig.initial.maxRetries
    retryDelay := (o.retryDelay.map fun ms => .ofMillis ms.toNat).getD
      QueueConfig.initial.retryDelay }
  keeper := { KeeperConfig.initial with
    verifyWrites := o.verifyWrites.getD KeeperConfig.initial.verifyWrites }
  backend := o.backend.getD initial.backend
  dataPath := o.dataPath

def queueFields (o : Overrides) : List (String × Option Json) :=
  [("max_concurrent_operations", o.maxConcurrent.map fun n => .nat n.toNat),
    ("default_max_retries", o.maxRetries.map fun n => .nat n.toNat),
    ("default_retry_delay_ms", o.retryDelay.map fun ms => .nat ms.toNat)]

def keeperFields (o : Overrides) : List (String × Option Json) :=
  [("verify_writes", o.verifyWrites.map .bool)]

def fields (o : Overrides) : List (String × Option Json) :=
  [("queue", Json.part o.queueFields), ("orchestrator", Json.part o.keeperFields),
    ("backend", o.backend.map .str), ("data_path", o.dataPath.map .str)]

def toJson (o : Overrides) : Json :=
  .obj (Json.present o.fields)

def writtenForms (o : Overrides) : List String :=
  [o.toJson.toText, o.toJson.toPrettyText]

variable (o : Overrides)

theorem ofJson?_queueFields :
    QueueConfig.ofJson? (.obj (Json.present o.queueFields)) = some o.config.queue := by
  have hkeys : (o.queueFields.map (·.1)).Nodup := by simp [queueFields]
  have hslot {key : String} {v : Option Json} (h : (key, v) ∈ o.queueFields) :=
    Json.slotOf_present hkeys h
  have hmaxConcurrent := hslot List.mem_cons_self
  have hmaxRetries := hslot (List.mem_cons_of_mem _ List.mem_cons_self)
  have hretryDelay := hslot (List.mem_cons_of_mem _ (List.mem_cons_of_mem _ List.mem_cons_self))
  have hmaxHistory : Json.slotOf (Json.present o.queueFields) "max_history" = .omitted :=
    Json.slotOf_present_of_notMem (by simp [queueFields])
  have hdelay (ms : UInt64) :
      ((Json.nat ms.toNat).word64?.map fun ms => Duration.ofMillis ms.toNat) =
        some (Duration.ofMillis ms.toNat) := by
    rw [Json.word64?_nat]
    rfl
  unfold QueueConfig.ofJson?
  rw [Json.record?_present _ hkeys]
  simp only [Option.bind_eq_bind, Option.bind_some]
  rw [hmaxConcurrent, hmaxRetries, hretryDelay, hmaxHistory,
    Json.orElse_ofOption (f := id) Json.word64?_nat,
    Json.orElse_ofOption (f := id) Json.word32?_nat, Json.orElse_ofOption hdelay,
    Option.map_id, Option.map_id]
  rfl

theorem ofJson?_keeperFields :
    KeeperConfig.ofJson? (.obj (Json.present o.keeperFields)) = some o.config.keeper := by
  have hkeys : (o.keeperFields.map (·.1)).Nodup := by simp [keeperFields]
  have hverify := Json.slotOf_present hkeys List.mem_cons_self
  have hreload : Json.slotOf (Json.present o.keeperFields) "reload_after_clear_rollback" =
      .omitted := Json.slotOf_present_of_notMem (by simp [keeperFields])
  unfold KeeperConfig.ofJson?
  rw [Json.record?_present _ hkeys]
  simp only [Option.bind_eq_bind, Option.bind_some]
  rw [hverify, hreload, Json.orElse_ofOption (f := id) Json.bool?_bool, Option.map_id]
  rfl

theorem ofJson?_toJson : Config.ofJson? o.toJson = some o.config := by
  have hkeys : (o.fields.map (·.1)).Nodup := by simp [fields]
  have hslot {key : String} {v : Option Json} (h : (key, v) ∈ o.fields) :=
    Json.slotOf_present hkeys h
  have hqueue : ("queue", _) ∈ o.fields := List.mem_cons_self
  have hkeeper : ("orchestrator", _) ∈ o.fields := List.mem_cons_of_mem _ List.mem_cons_self
  have hbackend : ("backend", o.backend.map .str) ∈ o.fields := by simp [fields]
  have hdataPath : ("data_path", o.dataPath.map .str) ∈ o.fields := by simp [fields]
  have hpath (path : String) : (Json.str path).nullable? Json.str? = some (some path) := rfl
  have hconfig : (o.dataPath.map some).getD none = o.dataPath := by
    cases o.dataPath with
    | none => rfl
    | some _ => rfl
  unfold Config.ofJson? toJson
  rw [Json.record?_present _ hkeys]
  simp only [Option.bind_eq_bind, Option.bind_some]
  rw [hslot hqueue, hslot hkeeper, hslot hbackend, hslot hdataPath,
    Json.orElse_part o.ofJson?_queueFields rfl, Json.orElse_part o.ofJson?_keeperFields rfl,
    Json.orElse_ofOption (f := id) Json.str?_str, Json.orElse_ofOption hpath, hconfig,
    Option.map_id]
  rfl

theorem sound_toJson : o.toJson.Sound := by
  apply Json.sound_present
  simp only [fields, List.forall_mem_cons]
  refine ⟨Json.sound_part ?_, Json.sound_part ?_, Json.sound_map .str _, Json.sound_map .str _,
    by simp⟩
  · simp only [queueFields, List.forall_mem_cons]
    exact ⟨Json.sound_map (fun _ => Json.sound_nat _) _,
      Json.sound_map (fun _ => Json.sound_nat _) _,
      Json.sound_map (fun _ => Json.sound_nat _) _, by simp⟩
  · simp only [keeperFields, List.forall_mem_cons]
    exact ⟨Json.sound_map .bool _, by simp⟩

variable {o}

theorem ofText_of_mem_writtenForms {text : String} (h : text ∈ o.writtenForms) :
    ofText text = o.config.validate.map fun _ => o.config := by
  have htext : Json.ofText? text = some o.toJson := by
    rcases List.mem_pair.1 h with rfl | rfl
    · exact Json.ofText?_toText o.sound_toJson
    · exact Json.ofText?_toPrettyText o.sound_toJson
  apply ofText_of_decodes
  rw [htext, Option.bind_some, ofJson?_toJson]

theorem GivenBy.madeFrom {env : Environment} (h : o.GivenBy env) : MadeFrom env o.config where
  maxConcurrent := by
    rw [setting_of_sets (f := id) h.maxConcurrent fun _ _ => parseWord64?_eq_some_iff.2,
      Option.map_id]
    rfl
  maxRetries := by
    rw [setting_of_sets (f := id) h.maxRetries fun _ _ => parseWord32?_eq_some_iff.2,
      Option.map_id]
    rfl
  retryDelay := by
    apply setting_of_sets h.retryDelay
    intro cs ms hms
    rw [parseWord64?_eq_some_iff.2 hms]
    rfl
  maxHistory := rfl
  verifyWrites := by
    rw [setting_of_sets (f := id) h.verifyWrites fun _ _ => parseBool?_eq_some_iff.2,
      Option.map_id]
    rfl
  reload := rfl
  backend := by
    rw [h.backend]
    rfl
  dataPath := h.dataPath.symm

theorem exists_givenBy {env : Environment} {c : Config} (h : MadeFrom env c) :
    ∃ o : Overrides, o.GivenBy env := by
  obtain ⟨maxConcurrent, h₁⟩ := exists_sets_of_setting h.maxConcurrent
    fun _ n hn => ⟨n, parseWord64?_eq_some_iff.1 hn⟩
  obtain ⟨maxRetries, h₂⟩ := exists_sets_of_setting h.maxRetries
    fun _ n hn => ⟨n, parseWord32?_eq_some_iff.1 hn⟩
  obtain ⟨retryDelay, h₃⟩ := exists_sets_of_setting h.retryDelay fun cs d hd => by
    obtain ⟨ms, hms, _⟩ := Option.map_eq_some_iff.1 hd
    exact ⟨ms, parseWord64?_eq_some_iff.1 hms⟩
  obtain ⟨verifyWrites, h₄⟩ := exists_sets_of_setting h.verifyWrites
    fun _ b hb => ⟨b, parseBool?_eq_some_iff.1 hb⟩
  exact ⟨⟨maxConcurrent, maxRetries, retryDelay, verifyWrites, _, _⟩, h₁, h₂, h₃, h₄, rfl, rfl⟩

def Usable (o : Overrides) : Prop :=
  o.maxConcurrent.getD QueueConfig.initial.maxConcurrent ≠ 0 ∧
    isBlankText (o.backend.getD initial.backend) = false

theorem validate_config_iff : o.config.validate = .ok () ↔ o.Usable := by
  have hvalidate : o.config.validate =
      if o.maxConcurrent.getD QueueConfig.initial.maxConcurrent = 0 then
        .error (.invalidConfig "max_concurrent_operations must be at least 1")
      else if isBlankText (o.backend.getD initial.backend) then
        .error (.invalidConfig "backend must not be empty")
      else
        .ok () := o.config.validate_eq
  rw [hvalidate]
  unfold Usable
  constructor
  · intro h
    split at h
    · cases h
    · next hcap =>
      split at h
      · cases h
      · next hbackend => exact ⟨hcap, by simpa using hbackend⟩
  · rintro ⟨hcap, hbackend⟩
    rw [if_neg hcap, hbackend]
    rfl

end Overrides

inductive Variable where
  | maxConcurrent
  | maxRetries
  | retryDelay
  | verifyWrites
  | backend
  | dataPath
deriving DecidableEq, Repr

namespace Variable

def key : Variable → String
  | .maxConcurrent => "PRIORIS_MAX_CONCURRENT_OPERATIONS"
  | .maxRetries => "PRIORIS_MAX_RETRIES"
  | .retryDelay => "PRIORIS_RETRY_DELAY_MS"
  | .verifyWrites => "PRIORIS_VERIFY_WRITES"
  | .backend => "PRIORIS_BACKEND"
  | .dataPath => "PRIORIS_DATA_PATH"

def SameField (c c' : Config) : Variable → Prop
  | .maxConcurrent => c.queue.maxConcurrent = c'.queue.maxConcurrent
  | .maxRetries => c.queue.maxRetries = c'.queue.maxRetries
  | .retryDelay => c.queue.retryDelay = c'.queue.retryDelay
  | .verifyWrites => c.keeper.verifyWrites = c'.keeper.verifyWrites
  | .backend => c.backend = c'.backend
  | .dataPath => c.dataPath = c'.dataPath

end Variable

theorem setting_congr {env env' : Environment} {key : String} (h : env key = env' key)
    (parse : List Char → Option α) (a : α) :
    setting env key parse a = setting env' key parse a := by
  unfold setting
  rw [h]

theorem MadeFrom.sameField {env env' : Environment} {c c' : Config} (h : MadeFrom env c)
    (h' : MadeFrom env' c') {v : Variable} (hv : env v.key = env' v.key) : v.SameField c c' := by
  have hsetting {α : Type} {parse : List Char → Option α} {b a a' : α}
      (ha : setting env v.key parse b = .ok a) (ha' : setting env' v.key parse b = .ok a') :
      a = a' := by
    rw [setting_congr hv, ha'] at ha
    exact (Except.ok.inj ha).symm
  cases v with
  | maxConcurrent => exact hsetting h.maxConcurrent h'.maxConcurrent
  | maxRetries => exact hsetting h.maxRetries h'.maxRetries
  | retryDelay => exact hsetting h.retryDelay h'.retryDelay
  | verifyWrites => exact hsetting h.verifyWrites h'.verifyWrites
  | backend => exact h.backend.trans ((congrArg (·.getD initial.backend) hv).trans h'.backend.symm)
  | dataPath => exact h.dataPath.trans (hv.trans h'.dataPath.symm)

structure AgreesWithDocument (env : Environment) : Prop where
  isOk_iff : (∃ c, ofEnvironment env = .ok c) ↔ ∃ o : Overrides, o.GivenBy env ∧ o.Usable
  eq_ofText : ∀ o : Overrides, o.GivenBy env → ∀ text ∈ o.writtenForms,
    ofEnvironment env = ofText text
  refused : (¬∃ c, ofEnvironment env = .ok c) →
    ∃ reason, ofEnvironment env = .error (.invalidConfig reason)
  own : ∀ env' c c', ofEnvironment env = .ok c → ofEnvironment env' = .ok c' →
    ∀ v : Variable, env v.key = env' v.key → v.SameField c c'
  fixed : ∀ c, ofEnvironment env = .ok c → c.queue.maxHistory = initial.queue.maxHistory ∧
    c.keeper.reloadAfterClearRollback = initial.keeper.reloadAfterClearRollback

theorem madeFrom_of_ok {env : Environment} {c : Config} (h : ofEnvironment env = .ok c) :
    MadeFrom env c := by
  rcases exists_madeFrom_or_refused env with ⟨made, hmade⟩ | ⟨reason, hreason⟩
  · rw [hmade.ofEnvironment_eq] at h
    rcases made.validate_cases with hvalid | ⟨reason, hreason⟩
    · rw [hvalid] at h
      cases h
      exact hmade
    · rw [hreason] at h
      cases h
  · rw [hreason] at h
    cases h

/--
An environment makes the same settings as the document that gives the values of its variables to
their fields and leaves everything else out. It is refused if there is no such document, or if its
values cannot be used.
-/
theorem environment_agrees (env : Environment) : AgreesWithDocument env where
  isOk_iff := by
    constructor
    · rintro ⟨c, hc⟩
      obtain ⟨o, ho⟩ := Overrides.exists_givenBy (madeFrom_of_ok hc)
      refine ⟨o, ho, Overrides.validate_config_iff.1 ?_⟩
      rw [ho.madeFrom.ofEnvironment_eq] at hc
      rcases o.config.validate_cases with hvalid | ⟨reason, hreason⟩
      · exact hvalid
      · rw [hreason] at hc
        cases hc
    · rintro ⟨o, ho, husable⟩
      refine ⟨o.config, ?_⟩
      rw [ho.madeFrom.ofEnvironment_eq, Overrides.validate_config_iff.2 husable]
      rfl
  eq_ofText := by
    intro o ho text htext
    rw [ho.madeFrom.ofEnvironment_eq, Overrides.ofText_of_mem_writtenForms htext]
  refused := by
    intro hnone
    rcases exists_madeFrom_or_refused env with ⟨c, hc⟩ | hrefused
    · rw [hc.ofEnvironment_eq] at hnone ⊢
      apply exists_reason_of_validate
      intro hvalid
      rw [hvalid] at hnone
      exact hnone ⟨c, rfl⟩
    · exact hrefused
  own := fun _ _ _ hc hc' _ hv => (madeFrom_of_ok hc).sameField (madeFrom_of_ok hc') hv
  fixed := fun _ hc => ⟨(madeFrom_of_ok hc).maxHistory, (madeFrom_of_ok hc).reload⟩

example : (ofEnvironment fun key => if key = "PRIORIS_MAX_RETRIES" then some " +007\n" else none) =
    .ok { initial with queue := { QueueConfig.initial with maxRetries := 7 } } := by
  decide +kernel

end Config
end ListKeeper
