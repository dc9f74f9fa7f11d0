import ListKeeper.Proofs.Index
import ListKeeper.Proofs.Json.Record
import ListKeeper.Storage.DataFile

/-!
This module contains that the content of storage is read back from the document it is written to,
as long as its scores and points in time are read back from theirs.
-/

namespace ListKeeper

def Double.Legible (x : Double) : Prop :=
  (Json.ofText? (Json.double x).toText).bind Json.double? = some x

def Timestamp.Legible (t : Timestamp) : Prop :=
  Timestamp.ofText? t.toText = some t

instance (t : Timestamp) : Decidable t.Legible :=
  inferInstanceAs (Decidable (_ = _))

structure Item.Legible (item : Item) : Prop where
  score : item.score.Legible
  createdAt : item.createdAt.Legible
  completedAt : ∀ t ∈ item.completedAt, t.Legible
  dueDate : ∀ t ∈ item.dueDate, t.Legible

structure Checklist.Legible (list : Checklist) : Prop where
  createdAt : list.createdAt.Legible
  updatedAt : list.updatedAt.Legible
  items : ∀ item ∈ list.items, item.Legible

structure Image.Legible (image : Image) : Prop where
  lists : ∀ id list, image.lists.get? id = some list → list.Legible
  items : ∀ id item, image.items.get? id = some item → item.Legible

namespace Json

theorem noDigit_of_skip {rest : List Char} (h : skip rest = []) : Text.NoDigit rest := by
  intro c hc
  cases rest with
  | nil => contradiction
  | cons d cs =>
    cases hc
    rw [Bool.eq_false_iff]
    intro hdigit
    have hnumeric : IsNumeric c := .inr (.inr (.inr (.inr hdigit)))
    rw [skip_cons hnumeric.isSpace_eq] at h
    contradiction

theorem double_of_legible {x : Double} (h : x.Legible) :
    ∃ n : Numeral, n.WellFormed ∧ double x = .num n ∧ (Json.num n).double? = some x := by
  unfold Double.Legible at h
  cases hfinite : x.isFinite with
  | false =>
    have hnull : double x = .null := by simp [double, hfinite]
    rw [hnull] at h
    contradiction
  | true =>
    have hnum : double x = .num x.toNumeral := by simp [double, hfinite]
    have hdigital := x.digital_toNumeral
    have hhead : ∀ c ∈ x.toNumeral.write.head?, IsNumeric c :=
      fun c hc => isNumeric_of_mem_write hdigital (List.mem_of_mem_head? hc)
    rw [hnum] at h
    unfold ofText? toText read write at h
    rw [String.toList_ofList, readValue_numeral hhead] at h
    cases hread : Numeral.read x.toNumeral.write with
    | none =>
      rw [hread] at h
      contradiction
    | some result =>
      obtain ⟨m, rest⟩ := result
      rw [hread] at h
      simp only [Option.map_some, List.isEmpty_iff] at h
      split at h
      · next hskip =>
        have hwell := Numeral.wellFormed_of_read hdigital hread (noDigit_of_skip hskip)
        have hback := Numeral.read_write hwell Numeral.stops_nil
        rw [List.append_nil, hread] at hback
        cases hback
        exact ⟨_, hwell, hnum, h⟩
      · contradiction

theorem time?_time {t : Timestamp} (h : t.Legible) : (time t).time? = some t := by
  unfold Timestamp.Legible at h
  unfold time? time
  rw [str?_str, Option.bind_some, h]

theorem nullable?_opt_time {o : Option Timestamp} (h : ∀ t ∈ o, t.Legible) :
    (opt time o).nullable? time? = some o :=
  nullable?_opt (by simp [time]) fun t ht => time?_time (h t ht)

theorem mapM_map_eq_some {read : β → Option α} {write : α → β} {as : List α}
    (h : ∀ a ∈ as, read (write a) = some a) : (as.map write).mapM read = some as := by
  induction as with
  | nil => rfl
  | cons a as ih =>
    rw [List.map_cons, List.mapM_cons, h a List.mem_cons_self,
      ih fun a' ha' => h a' (List.mem_cons_of_mem _ ha')]
    rfl

end Json

namespace Item

variable {item : Item} (h : item.Legible)
include h

theorem sound_toJson : item.toJson.Sound := by
  obtain ⟨n, hn, hdouble, _⟩ := Json.double_of_legible h.score
  have hscore : (Json.double item.score).Sound := by
    rw [hdouble]
    exact .num hn
  have htext (o : Option String) : (Json.opt .str o).Sound := Json.sound_opt fun s _ => .str s
  have htime (o : Option Timestamp) : (Json.opt .time o).Sound :=
    Json.sound_opt fun t _ => .str t.toText
  apply Json.Sound.obj
  simp only [List.forall_mem_cons]
  exact ⟨.str _, .str _, htext _, htext _, hscore, .bool _, .str _, htime _, htime _, .str _, by simp⟩

theorem ofJson?_toJson : ofJson? item.toJson = some item := by
  obtain ⟨n, _, hdouble, hscore⟩ := Json.double_of_legible h.score
  unfold ofJson? toJson toJsonWith
  rw [Json.record?_obj _ (by simp), hdouble]
  simp [Json.slotOf_self, Json.slotOf_of_ne, Json.Slot.required, Json.Slot.optional, hscore,
    Json.time?_time h.createdAt, Json.nullable?_opt_time h.completedAt,
    Json.nullable?_opt_time h.dueDate]

end Item

theorem Topic.ofJson?_toJson (topic : Topic) : ofJson? topic.toJson = some topic := by
  cases topic <;> rfl

namespace Checklist

variable {list : Checklist} (h : list.Legible)
include h

theorem sound_toJson : list.toJson.Sound := by
  have htext (o : Option String) : (Json.opt .str o).Sound := Json.sound_opt fun s _ => .str s
  have hitems : (Json.arr (list.items.map (·.toJsonWith .double))).Sound := by
    apply Json.Sound.arr
    intro v hv
    obtain ⟨item, hitem, rfl⟩ := List.mem_map.1 hv
    exact Item.sound_toJson (h.items item hitem)
  apply Json.Sound.obj
  simp only [List.forall_mem_cons]
  exact ⟨.str _, .str _, .str _, htext _, hitems, .str _, .str _, by simp⟩

theorem ofJson?_toJson : ofJson? list.toJson = some list := by
  have hitems : (Json.arr (list.items.map (·.toJsonWith .double))).list? Item.ofJson? =
      some list.items :=
    Json.mapM_map_eq_some fun item hitem => Item.ofJson?_toJson (h.items item hitem)
  unfold ofJson? toJson toJsonWith
  rw [Json.record?_obj _ (by simp)]
  simp [Json.slotOf_self, Json.slotOf_of_ne, Json.Slot.required, Json.Slot.optional,
    Json.Slot.orElse, hitems, Topic.ofJson?_toJson, Json.time?_time h.createdAt,
    Json.time?_time h.updatedAt]

end Checklist

namespace Index

theorem insertEntry_of_lt {id : String} {a : α} {entries : List (String × α)}
    (h : ∀ e ∈ entries, e.1 < id) : insertEntry id a entries = entries ++ [(id, a)] := by
  induction entries with
  | nil => rfl
  | cons entry rest ih =>
    obtain ⟨k, b⟩ := entry
    have hlt : k < id := h (k, b) List.mem_cons_self
    have hnot : ¬ id < k := fun hgt => String.lt_irrefl _ (String.lt_trans hlt hgt)
    have hne : id ≠ k := by
      rintro rfl
      exact String.lt_irrefl _ hlt
    simp only [insertEntry, hnot, hne, if_false]
    rw [ih fun e he => h e (List.mem_cons_of_mem _ he)]
    rfl

theorem entries_foldl_insert {acc : Index α} {entries : List (String × α)}
    (h : Ascending (acc.entries ++ entries)) :
    (entries.foldl (fun index (id, a) => index.insert id a) acc).entries =
      acc.entries ++ entries := by
  induction entries generalizing acc with
  | nil => simp
  | cons entry rest ih =>
    obtain ⟨id, a⟩ := entry
    have hlast : (acc.insert id a).entries = acc.entries ++ [(id, a)] := by
      apply insertEntry_of_lt
      intro e he
      exact (List.pairwise_append.1 h).2.2 e he (id, a) List.mem_cons_self
    rw [List.foldl_cons, ih, hlast]
    · simp
    · rw [hlast]
      simpa using h

theorem ofList_entries (index : Index α) : ofList index.entries = index := by
  have hentries : (ofList index.entries).entries = index.entries :=
    entries_foldl_insert index.ascending
  cases hlist : ofList index.entries
  rw [hlist] at hentries
  cases index
  cases hentries
  rfl

theorem entries?_map {index : Index α} {read : Json → Option α} {write : α → Json}
    (h : ∀ id a, index.get? id = some a → read (write a) = some a) :
    (Json.obj (index.entries.map fun (id, a) => (id, write a))).entries? read =
      some index.entries := by
  apply Json.mapM_map_eq_some
  rintro ⟨id, a⟩ hmem
  simp only [h id a ((index.mem_entries id a).1 hmem), Option.map_some]

end Index

namespace Image

variable {image : Image} (h : image.Legible)
include h

theorem sound_toJson : image.toJson.Sound := by
  apply Json.Sound.obj
  simp only [List.forall_mem_cons]
  refine ⟨.obj ?_, .obj ?_, by simp⟩
  · intro field hfield
    obtain ⟨⟨id, list⟩, hmem, rfl⟩ := List.mem_map.1 hfield
    exact Checklist.sound_toJson (h.lists id list ((image.lists.mem_entries id list).1 hmem))
  · intro field hfield
    obtain ⟨⟨id, item⟩, hmem, rfl⟩ := List.mem_map.1 hfield
    exact Item.sound_toJson (h.items id item ((image.items.mem_entries id item).1 hmem))

theorem ofJson?_toJson : ofJson? image.toJson = some image := by
  have hlists := Index.entries?_map fun id list hlist => Checklist.ofJson?_toJson (h.lists id list hlist)
  have hitems := Index.entries?_map fun id item hitem => Item.ofJson?_toJson (h.items id item hitem)
  unfold ofJson? toJson
  rw [Json.record?_obj _ (by simp)]
  simp [Json.slotOf_self, Json.slotOf_of_ne, Json.Slot.orElse, hlists, hitems, Index.ofList_entries]

end Image

theorem Image.legible_empty : Image.empty.Legible :=
  ⟨fun _ _ h => (nomatch h), fun _ _ h => (nomatch h)⟩

theorem Image.Legible.putList {image : Image} {list : Checklist} (h : image.Legible)
    (hlist : list.withoutItems.Legible) : (image.putList list).Legible where
  lists := by
    intro id stored hstored
    simp only [Image.putList, Index.get?_insert] at hstored
    split at hstored
    · cases hstored
      exact hlist
    · exact h.lists id stored hstored
  items := h.items

theorem DataFile.decode?_encode {image : Image} (h : image.Legible) :
    decode? (encode image) = some image := by
  unfold decode? encode
  rw [Json.ofText?_toPrettyText (Image.sound_toJson h), Option.bind_some, Image.ofJson?_toJson h]

end ListKeeper
