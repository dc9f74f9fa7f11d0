import ListKeeper.Config.Basic
import ListKeeper.Proofs.Json.Record

/-!
This module contains that settings are read back from their written form, apart from the delay
between attempts, which is written in whole milliseconds of a 64-bit word. Settings that are not
valid are not read back.
-/

namespace ListKeeper

namespace Duration

def inMillis (d : Duration) : Duration :=
  .ofMillis (d.millis % UInt64.size)

theorem ofMillis_millisWord (d : Duration) : ofMillis d.millisWord.toNat = d.inMillis :=
  congrArg ofMillis UInt64.toNat_ofNat'

theorem inMillis_eq_self_iff (d : Duration) :
    d.inMillis = d ↔ ∃ ms < UInt64.size, d = ofMillis ms := by
  constructor
  · intro h
    exact ⟨_, Nat.mod_lt _ (by decide), h.symm⟩
  · rintro ⟨ms, hms, rfl⟩
    rw [inMillis, millis_ofMillis, Nat.mod_eq_of_lt hms]

theorem inMillis_inMillis (d : Duration) : d.inMillis.inMillis = d.inMillis :=
  d.inMillis.inMillis_eq_self_iff.2 ⟨_, Nat.mod_lt _ (by decide), rfl⟩

end Duration

namespace QueueConfig

def inMillis (c : QueueConfig) : QueueConfig :=
  { c with retryDelay := c.retryDelay.inMillis }

theorem sound_toJson (c : QueueConfig) : c.toJson.Sound := by
  apply Json.Sound.obj
  simp [Json.sound_nat]

theorem ofJson?_toJson (c : QueueConfig) : ofJson? c.toJson = some c.inMillis := by
  unfold ofJson? toJson
  rw [Json.record?_obj _ (by simp)]
  simp [Json.slotOf_self, Json.slotOf_of_ne, Json.Slot.orElse, Duration.ofMillis_millisWord,
    inMillis]

end QueueConfig

namespace KeeperConfig

theorem sound_toJson (c : KeeperConfig) : c.toJson.Sound := by
  apply Json.Sound.obj
  simp [Json.Sound.bool]

theorem ofJson?_toJson (c : KeeperConfig) : ofJson? c.toJson = some c := by
  unfold ofJson? toJson
  rw [Json.record?_obj _ (by simp)]
  simp [Json.slotOf_self, Json.slotOf_of_ne, Json.Slot.orElse]

end KeeperConfig

namespace Config

def inMillis (c : Config) : Config :=
  { c with queue := c.queue.inMillis }

def writtenForms (c : Config) : List String :=
  [c.toJson.toText, c.toJson.toPrettyText]

theorem sound_toJson (c : Config) : c.toJson.Sound := by
  apply Json.Sound.obj
  simp only [List.forall_mem_cons]
  exact ⟨c.queue.sound_toJson, c.keeper.sound_toJson, .str _, Json.sound_opt fun s _ => .str s,
    by simp⟩

theorem ofJson?_toJson (c : Config) : ofJson? c.toJson = some c.inMillis := by
  unfold ofJson? toJson
  rw [Json.record?_obj _ (by simp)]
  simp [Json.slotOf_self, Json.slotOf_of_ne, Json.Slot.orElse, QueueConfig.ofJson?_toJson,
    KeeperConfig.ofJson?_toJson, inMillis]

theorem decodes_of_mem_writtenForms {c : Config} {text : String} (h : text ∈ c.writtenForms) :
    (Json.ofText? text).bind ofJson? = some c.inMillis := by
  have htext : Json.ofText? text = some c.toJson := by
    rcases List.mem_pair.1 h with rfl | rfl
    · exact Json.ofText?_toText c.sound_toJson
    · exact Json.ofText?_toPrettyText c.sound_toJson
  rw [htext, Option.bind_some, ofJson?_toJson]

theorem ofText_of_decodes {c : Config} {text : String}
    (h : (Json.ofText? text).bind ofJson? = some c) :
    ofText text = c.validate.map fun _ => c := by
  simp only [ofText, h]
  cases c.validate with
  | error e => rfl
  | ok _ => rfl

theorem ofText_of_mem_writtenForms {c : Config} {text : String} (h : text ∈ c.writtenForms) :
    ofText text = c.validate.map fun _ => c.inMillis :=
  ofText_of_decodes (decodes_of_mem_writtenForms h)

theorem validate_eq (c : Config) :
    c.validate =
      if c.queue.maxConcurrent = 0 then
        .error (.invalidConfig "max_concurrent_operations must be at least 1")
      else if Text.isBlankText c.backend then
        .error (.invalidConfig "backend must not be empty")
      else
        .ok () := by
  unfold validate QueueConfig.validate
  split
  · rfl
  · rfl

theorem validate_cases (c : Config) :
    c.validate = .ok () ∨ ∃ reason, c.validate = .error (.invalidConfig reason) := by
  rw [validate_eq]
  split
  · exact .inr ⟨_, rfl⟩
  split
  · exact .inr ⟨_, rfl⟩
  · exact .inl rfl

theorem inMillis_eq_self_iff (c : Config) :
    c.inMillis = c ↔ ∃ ms < UInt64.size, c.queue.retryDelay = .ofMillis ms := by
  rw [← Duration.inMillis_eq_self_iff]
  constructor
  · intro h
    exact congrArg (·.queue.retryDelay) h
  · intro h
    simp only [inMillis, QueueConfig.inMillis, h]

theorem inMillis_inMillis (c : Config) : c.inMillis.inMillis = c.inMillis := by
  simp only [inMillis, QueueConfig.inMillis, Duration.inMillis_inMillis]

theorem validate_inMillis (c : Config) : c.inMillis.validate = c.validate := rfl

/--
Valid settings are read back from each of their written forms with the delay in whole milliseconds,
so they are read back as they are if and only if the delay is a number of milliseconds of 64 bits,
and what was read back once stays as it is. No text is read as settings that are not valid, and the
written forms of these are refused.
-/
theorem config_roundTrip (c : Config) :
    (c.validate = .ok () → ∀ text ∈ c.writtenForms,
      ofText text = .ok { c with queue := { c.queue with
        retryDelay := .ofMillis (c.queue.retryDelay.millis % UInt64.size) } } ∧
      (ofText text = .ok c ↔ ∃ ms < UInt64.size, c.queue.retryDelay = .ofMillis ms)) ∧
    (∀ text ∈ c.writtenForms, ∀ d, ofText text = .ok d →
      ∀ text' ∈ d.writtenForms, ofText text' = .ok d) ∧
    (c.validate ≠ .ok () → ∀ text,
      text ∈ c.writtenForms ∨ (Json.ofText? text).bind ofJson? = some c →
        ∃ reason, ofText text = .error (.invalidConfig reason)) := by
  refine ⟨?_, ?_, ?_⟩
  · intro hvalid text htext
    have hread : ofText text = .ok c.inMillis := by
      rw [ofText_of_mem_writtenForms htext, hvalid]
      rfl
    refine ⟨hread, ?_⟩
    rw [hread, Except.ok.injEq, inMillis_eq_self_iff]
  · intro text htext d hread text' htext'
    rw [ofText_of_mem_writtenForms htext] at hread
    rcases c.validate_cases with hvalid | ⟨reason, hreason⟩
    · rw [hvalid] at hread
      cases hread
      rw [ofText_of_mem_writtenForms htext', validate_inMillis, hvalid, inMillis_inMillis]
      rfl
    · rw [hreason] at hread
      contradiction
  · intro hinvalid text htext
    obtain ⟨reason, hreason⟩ := c.validate_cases.resolve_left hinvalid
    refine ⟨reason, ?_⟩
    rcases htext with hwritten | hdecodes
    · rw [ofText_of_mem_writtenForms hwritten, hreason]
      rfl
    · rw [ofText_of_decodes hdecodes, hreason]
      rfl

/--
Of a delay that is half a millisecond longer than `2^64 + 1` milliseconds one millisecond is left.
-/
theorem config_roundTrip_longDelay :
    let c : Config := { initial with queue := { QueueConfig.initial with
      retryDelay := ⟨18446744073709551617500000⟩ } }
    let blank : Config := { initial with backend := " " }
    (c.validate = .ok () ∧
      ofText c.toJson.toText = .ok { c with queue := { c.queue with retryDelay := .ofMillis 1 } }) ∧
    (blank.validate ≠ .ok () ∧
      ∃ reason, ofText blank.toJson.toPrettyText = .error (.invalidConfig reason)) := by
  intro c blank
  have hvalid : c.validate = .ok () := by cbv
  have hinvalid : blank.validate ≠ .ok () := by
    have hblank : blank.validate = .error (.invalidConfig "backend must not be empty") := by cbv
    simp [hblank]
  have hwritten : c.toJson.toText ∈ c.writtenForms := List.mem_cons_self
  have hblank : blank.toJson.toPrettyText ∈ blank.writtenForms := List.mem_cons_of_mem _ (by simp)
  have hread := ((config_roundTrip c).1 hvalid _ hwritten).1
  rw [show c.queue.retryDelay.millis % UInt64.size = 1 by decide] at hread
  exact ⟨⟨hvalid, hread⟩, hinvalid, (config_roundTrip blank).2.2 hinvalid _ (.inl hblank)⟩

end Config
end ListKeeper
