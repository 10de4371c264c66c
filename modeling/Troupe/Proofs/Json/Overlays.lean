import Troupe.Proofs.Json.Records
import Troupe.Settings

/-!
# Partial settings overlay the defaults

Settings are written as an object that lists some of their fields. A field that is listed replaces
the default, all others keep it; that holds for the settings of an actor inside those of a system as
well. Neither the order of the members matters nor what stands between them under keys of no field,
as long as it is a value. Inside a duration nothing else may stand, and both parts must.

What a text lists is said by the texts of its members alone: `Tells` relates the members to the
settings whose values they give, and `overlay` are the defaults with the listed fields replaced.

## Main definitions

* `Json.ListsOnly`, `Json.Padded` — which fields are listed, and texts with blanks around
* `Duration.Listed`, `ActorSettings.Listed`, `SystemSettings.Listed` — the texts
* `ActorSettings.overlay`, `SystemSettings.overlay` — the defaults with some fields replaced

## Main results

* `Duration.reads_listed`, `ActorSettings.reads_listed`, `SystemSettings.reads_listed` — the texts
  are read
* `SystemSettings.partial_settings_overlay` — partial settings overlay the defaults
-/

namespace Troupe

open Json Text

namespace Json

/-- Of the given keys of fields, just those in `given` occur, each once, in any place. Under other
keys there may be any value, as often as one likes. -/
structure ListsOnly (fields given : List String) (ms : List (String × List Char)) : Prop where
  /-- The keys of fields. -/
  once : ∀ k ∈ fields, (ms.map Prod.fst).count k = if k ∈ given then 1 else 0
  /-- The other keys. -/
  others : ∀ m ∈ ms, m.1 ∉ fields → Derives .value m.2

/-- A text that consists of certain characters and of blanks around them. -/
def Padded (Form : List Char → Prop) (text : String) : Prop :=
  ∃ before cs behind, Blank before ∧ Form cs ∧ Blank behind ∧
    text.toList = before ++ cs ++ behind

theorem Decoder.Reads.decode_padded {α : Type} {d : Decoder α} {a : α} {Form : List Char → Prop}
    {text : String} (h : Padded Form text) (hd : ∀ cs, Form cs → d.Reads cs a) :
    d.decode text = .ok a := by
  obtain ⟨before, cs, behind, hb, hf, hb', htext⟩ := h
  rw [← String.ofList_toList (s := text), htext]
  exact (hd cs hf).decode hb hb'

theorem padded_render {Form : List Char → Prop} {v : Json} (h : Form (written v)) :
    Padded Form v.render :=
  ⟨[], _, [], blank_nil, h, blank_nil, by simp [render]⟩

/-- What a tolerant record collects has just the fields that are listed. -/
theorem RecordShape.Views.collects_of_listsOnly {σ α : Type} {shape : RecordShape σ α}
    {Told : String → List Char → Prop} {view : List String → σ} (h : shape.Views Told view)
    {given : List String} {ms : List (String × List Char)} (ht : shape.tolerant = true)
    (hl : ListsOnly (shape.fields.map (·.name)) given ms) (told : ∀ m ∈ ms, Told m.1 m.2) :
    ∃ ks, (∀ k ∈ shape.fields.map (·.name), k ∈ ks ↔ k ∈ given) ∧
      shape.Collects shape.blank ms (view ks) := by
  refine ⟨(ms.map Prod.fst).reverse ++ [], fun k hk => ?_, h.blank ▸ h.collects ?_ ?_ ?_⟩
  · rw [List.append_nil, List.mem_reverse, ← List.count_pos_iff, hl.once k hk]
    split <;> simp_all
  · intro f hf
    rw [List.nil_append, hl.once f.name (List.mem_map_of_mem hf)]
    split <;> omega
  · exact fun m hm _ => told m hm
  · refine fun m hm hno => ⟨ht, hl.others m hm ?_⟩
    simpa using hno

/-- A whole number without a sign is written as its digits. -/
theorem written_ofNat (n : Nat) : written (.ofNat n) = digits n := by
  have hlen : 0 < (digits n).length := List.length_pos_iff.mpr (digits_ne_nil n)
  have hpad : 1 - (digits n).length = 0 := by omega
  simp [ofNat, written, writtenNumber, hpad]

end Json

/-! ### Durations -/

namespace Duration

/-- Seconds of at most 64 bits, and less than a second in nanoseconds. -/
structure Fits (d : Duration) : Prop where
  /-- The seconds. -/
  secs : d.secs ≤ wordMax
  /-- The nanoseconds. -/
  nanos : d.nanos < 1000000000

/-- The text of a duration: an object with its two parts, in either order, and nothing else. -/
def Listed (d : Duration) (cs : List Char) : Prop :=
  ∃ ms, ms.Perm [("secs", digits d.secs), ("nanos", digits d.nanos)] ∧ ObjectText ms cs

/-- Which texts tell the parts of a duration. -/
def Told (d : Duration) (k : String) (v : List Char) : Prop :=
  (k = "secs" → v = digits d.secs) ∧ (k = "nanos" → v = digits d.nanos)

/-- The draft of a duration after the given keys. -/
def view (d : Duration) (ks : List String) : Draft where
  secs := if "secs" ∈ ks then some d.secs else none
  nanos := if "nanos" ∈ ks then some d.nanos else none

variable {d : Duration} {cs : List Char}

theorem Fits.views (hd : d.Fits) : shape.Views d.Told d.view where
  blank := rfl
  fresh := by simp +contextual [shape, view]
  enters := by
    have hnanos : d.nanos ≤ 0xFFFFFFFF := Nat.le_trans (Nat.le_of_lt hd.nanos) (by decide)
    simp only [shape, List.forall_mem_cons]
    refine ⟨fun v hv => ?_, fun v hv => ?_, List.forall_mem_nil _⟩
    · rw [hv.1 rfl]
      exact ⟨_, (Decoder.reads_count hd.secs hd.secs).map _, fun ks => by simp [view]⟩
    · rw [hv.2 rfl]
      exact ⟨_, (Decoder.reads_count hnanos (Nat.le_trans hnanos (by decide))).map _,
        fun ks => by simp [view]⟩
  others := by
    simp only [shape, List.forall_mem_cons, view]
    rintro k ⟨hs, hn, -⟩ ks
    simp [hs, hn]

theorem reads_listed (hd : d.Fits) (h : d.Listed cs) : decoder.Reads cs d := by
  obtain ⟨ms, hp, ho⟩ := h
  obtain ⟨ks, hks, hcollects⟩ := hd.views.collects_of_perm hp (by simp) (by simp [shape, Told])
  refine RecordShape.reads_of_collects ho hcollects ?_
  have hs : "secs" ∈ ks := (hks _).mpr (by simp)
  have hn : "nanos" ∈ ks := (hks _).mpr (by simp)
  -- Nothing is carried from the nanoseconds to the seconds.
  have hcarried : carried d.secs d.nanos = d := by
    rw [carried, Nat.div_eq_of_lt hd.nanos, Nat.mod_eq_of_lt hd.nanos, Nat.add_zero]
  simp [shape, Draft.complete, view, hs, hn, hcarried, hd.secs]

theorem listed_written (d : Duration) : d.Listed (written d.toJson) := by
  refine ⟨_, .refl _, ?_⟩
  have h := objectText_written [("secs", .ofNat d.secs), ("nanos", .ofNat d.nanos)]
  simpa [written_ofNat, toJson] using h

end Duration

/-! ### Settings of actors -/

namespace ActorSettings

/-- The duration is one of 64 bits. -/
def Fits (s : ActorSettings) : Prop := s.closeTimeout.Fits

/-- The members list the given fields with their values in `s`. -/
structure Tells (s : ActorSettings) (given : List String) (ms : List (String × List Char)) :
    Prop where
  /-- Which members there are. -/
  only : ListsOnly ["close_timeout"] given ms
  /-- The value of the close timeout. -/
  closeTimeout : ∀ v, ("close_timeout", v) ∈ ms → s.closeTimeout.Listed v

/-- The texts of objects that list the given fields. -/
def Listed (s : ActorSettings) (given : List String) (cs : List Char) : Prop :=
  ∃ ms, ObjectText ms cs ∧ s.Tells given ms

/-- The defaults in which the given fields are those of `s`. -/
def overlay (given : List String) (s : ActorSettings) : ActorSettings where
  closeTimeout :=
    if "close_timeout" ∈ given then s.closeTimeout else ({} : ActorSettings).closeTimeout

/-- Which texts tell the value of a field. -/
def Told (s : ActorSettings) (k : String) (v : List Char) : Prop :=
  k = "close_timeout" → s.closeTimeout.Listed v

/-- The draft of settings after the given keys. -/
def view (s : ActorSettings) (ks : List String) : Draft where
  closeTimeout := if "close_timeout" ∈ ks then some s.closeTimeout else none

variable {s : ActorSettings} {given ks : List String} {cs : List Char}

theorem Fits.views (hs : s.Fits) : shape.Views s.Told s.view where
  blank := rfl
  fresh := by simp +contextual [shape, view]
  enters := by
    simp only [shape, List.forall_mem_cons]
    refine ⟨fun v hv => ?_, List.forall_mem_nil _⟩
    exact ⟨_, (Duration.reads_listed hs (hv rfl)).map _, fun ks => by simp [view]⟩
  others := by
    simp only [shape, List.forall_mem_cons, view]
    rintro k ⟨hc, -⟩ ks
    simp [hc]

theorem settings_view (h : "close_timeout" ∈ ks ↔ "close_timeout" ∈ given) :
    (s.view ks).settings = s.overlay given := by
  by_cases hc : "close_timeout" ∈ given <;> simp [view, Draft.settings, overlay, h, hc]

/-- **Partial settings of an actor** read as the defaults with the listed fields replaced. -/
theorem reads_listed (hs : s.Fits) (h : s.Listed given cs) :
    decoder.Reads cs (s.overlay given) := by
  obtain ⟨ms, ho, ht⟩ := h
  have told : ∀ m ∈ ms, s.Told m.1 m.2 := by
    rintro ⟨k, v⟩ hm rfl
    exact ht.closeTimeout v hm
  obtain ⟨ks, hks, hcollects⟩ := hs.views.collects_of_listsOnly rfl ht.only told
  refine RecordShape.reads_of_collects ho hcollects ?_
  exact congrArg some (settings_view (hks _ (by simp [shape])))

theorem listed_written (s : ActorSettings) : s.Listed ["close_timeout"] (written s.toJson) := by
  refine ⟨_, objectText_written [("close_timeout", s.closeTimeout.toJson)], ⟨?_, ?_⟩, ?_⟩
  · simp
  · simp
  · intro v hv
    obtain rfl : v = written s.closeTimeout.toJson := by simpa using hv
    exact s.closeTimeout.listed_written

end ActorSettings

/-! ### Settings of systems -/

namespace SystemSettings

/-- The keys of the fields. -/
def fieldNames : List String := ["name", "default_pool_workers", "pool_shutdown_timeout", "actor"]

/-- A given number of workers and durations, all of 64 bits. -/
structure Fits (s : SystemSettings) : Prop where
  /-- The number of workers. -/
  workers : ∃ n ≤ wordMax, s.workers = .exactly n
  /-- The grace period. -/
  grace : s.grace.Fits
  /-- The settings of actors. -/
  actor : s.actor.Fits

/-- The members list the given fields with their values in `s`, and the settings of actors, if they
are listed, list the given fields of theirs. -/
structure Tells (s : SystemSettings) (given inner : List String)
    (ms : List (String × List Char)) : Prop where
  /-- Which members there are. -/
  only : ListsOnly fieldNames given ms
  /-- The value of the name. -/
  name : ∀ v, ("name", v) ∈ ms → TextOf s.name v
  /-- The value of the number of workers. -/
  workers : ∀ v, ("default_pool_workers", v) ∈ ms → ∃ n, s.workers = .exactly n ∧ v = digits n
  /-- The value of the grace period. -/
  grace : ∀ v, ("pool_shutdown_timeout", v) ∈ ms → s.grace.Listed v
  /-- The settings of actors. -/
  actor : ∀ v, ("actor", v) ∈ ms → s.actor.Listed inner v

/-- The texts of objects that list the given fields, and of the settings of actors the given ones
of theirs. -/
def Listed (s : SystemSettings) (given inner : List String) (cs : List Char) : Prop :=
  ∃ ms, ObjectText ms cs ∧ s.Tells given inner ms

/-- The defaults in which the given fields are those of `s`; the settings of actors, if they are
given, are themselves an overlay. -/
def overlay (given inner : List String) (s : SystemSettings) : SystemSettings where
  name := if "name" ∈ given then s.name else ({} : SystemSettings).name
  workers := if "default_pool_workers" ∈ given then s.workers else ({} : SystemSettings).workers
  grace := if "pool_shutdown_timeout" ∈ given then s.grace else ({} : SystemSettings).grace
  actor := if "actor" ∈ given then s.actor.overlay inner else ({} : SystemSettings).actor

/-- Which texts tell the value of a field, if the number of workers is `n`. -/
structure Told (s : SystemSettings) (n : Nat) (inner : List String) (k : String) (v : List Char) :
    Prop where
  name : k = "name" → TextOf s.name v
  workers : k = "default_pool_workers" → v = digits n
  grace : k = "pool_shutdown_timeout" → s.grace.Listed v
  actor : k = "actor" → s.actor.Listed inner v

/-- The draft of settings after the given keys, if the number of workers is `n`. -/
def view (s : SystemSettings) (n : Nat) (inner ks : List String) : Draft where
  name := if "name" ∈ ks then some s.name else none
  workers := if "default_pool_workers" ∈ ks then some n else none
  grace := if "pool_shutdown_timeout" ∈ ks then some s.grace else none
  actor := if "actor" ∈ ks then some (s.actor.overlay inner) else none

variable {s : SystemSettings} {n : Nat} {given inner ks : List String} {cs : List Char}

theorem Fits.views (hs : s.Fits) (hn : n ≤ wordMax) :
    shape.Views (s.Told n inner) (s.view n inner) where
  blank := rfl
  fresh := by simp +contextual [shape, view]
  enters := by
    simp only [shape, List.forall_mem_cons]
    refine ⟨fun v hv => ?_, fun v hv => ?_, fun v hv => ?_, fun v hv => ?_,
      List.forall_mem_nil _⟩
    · exact ⟨_, (Decoder.reads_text (hv.name rfl)).map _, fun ks => by simp [view]⟩
    · rw [hv.workers rfl]
      exact ⟨_, (Decoder.reads_count hn hn).map _, fun ks => by simp [view]⟩
    · exact ⟨_, (Duration.reads_listed hs.grace (hv.grace rfl)).map _, fun ks => by simp [view]⟩
    · exact ⟨_, (ActorSettings.reads_listed hs.actor (hv.actor rfl)).map _,
        fun ks => by simp [view]⟩
  others := by
    simp only [shape, List.forall_mem_cons, view]
    rintro k ⟨hname, hworkers, hgrace, hactor, -⟩ ks
    simp [hname, hworkers, hgrace, hactor]

theorem settings_view (hw : s.workers = .exactly n) (h : ∀ k ∈ fieldNames, k ∈ ks ↔ k ∈ given) :
    (s.view n inner ks).settings = s.overlay given inner := by
  simp only [fieldNames, List.forall_mem_cons] at h
  obtain ⟨hname, hworkers, hgrace, hactor, -⟩ := h
  simp only [view, Draft.settings, overlay, hname, hworkers, hgrace, hactor, hw]
  -- Each field for itself: it is listed, or its default stays.
  congr 1 <;> split <;> rfl

/-- **Partial settings of a system** read as the defaults with the listed fields replaced. -/
theorem reads_listed (hs : s.Fits) (h : s.Listed given inner cs) :
    decoder.Reads cs (s.overlay given inner) := by
  obtain ⟨ms, ho, ht⟩ := h
  obtain ⟨n, hn, hw⟩ := hs.workers
  have told : ∀ m ∈ ms, s.Told n inner m.1 m.2 := by
    rintro ⟨k, v⟩ hm
    refine ⟨?_, ?_, ?_, ?_⟩ <;> rintro rfl
    · exact ht.name v hm
    · obtain ⟨n', hw', rfl⟩ := ht.workers v hm
      rw [hw] at hw'
      rw [Workers.exactly.inj hw']
    · exact ht.grace v hm
    · exact ht.actor v hm
  obtain ⟨ks, hks, hcollects⟩ := (hs.views hn).collects_of_listsOnly rfl ht.only told
  refine RecordShape.reads_of_collects ho hcollects ?_
  exact congrArg some (settings_view hw hks)

theorem listed_written (machine : Json) (hw : s.workers = .exactly n) :
    s.Listed fieldNames ["close_timeout"] (written (s.toJson machine)) := by
  refine ⟨_, objectText_written [("name", .str s.name),
    ("default_pool_workers", s.workers.toJson machine),
    ("pool_shutdown_timeout", s.grace.toJson), ("actor", s.actor.toJson)], ⟨?_, ?_⟩, ?_, ?_, ?_, ?_⟩
  · simp [fieldNames]
  · simp [fieldNames]
  · intro v hv
    obtain rfl : v = written (.str s.name) := by simpa using hv
    exact textOf_written s.name
  · intro v hv
    obtain rfl : v = written (s.workers.toJson machine) := by simpa using hv
    exact ⟨n, hw, by rw [hw, Workers.toJson, written_ofNat]⟩
  · intro v hv
    obtain rfl : v = written s.grace.toJson := by simpa using hv
    exact s.grace.listed_written
  · intro v hv
    obtain rfl : v = written s.actor.toJson := by simpa using hv
    exact s.actor.listed_written

theorem overlay_fieldNames (s : SystemSettings) : s.overlay fieldNames ["close_timeout"] = s := by
  simp [overlay, ActorSettings.overlay, fieldNames]

/-- **Partial settings overlay the defaults**, and settings that are written in full are read
back. -/
theorem partial_settings_overlay :
    (∀ (s : ActorSettings) (given : List String) (text : String), s.Fits →
      Padded (s.Listed given) text →
        ActorSettings.decoder.decode text = .ok (s.overlay given)) ∧
    (∀ (s : SystemSettings) (given inner : List String) (text : String), s.Fits →
      Padded (s.Listed given inner) text →
        SystemSettings.decoder.decode text = .ok (s.overlay given inner)) ∧
    (∀ s : ActorSettings, s.Fits → ActorSettings.decoder.decode s.toJson.render = .ok s) ∧
    ∀ (machine : Json) (s : SystemSettings), s.Fits →
      SystemSettings.decoder.decode (s.toJson machine).render = .ok s := by
  have actors : ∀ (s : ActorSettings) (given : List String) (text : String), s.Fits →
      Padded (s.Listed given) text →
        ActorSettings.decoder.decode text = .ok (s.overlay given) :=
    fun _ _ _ hs h => Decoder.Reads.decode_padded h fun _ => ActorSettings.reads_listed hs
  have systems : ∀ (s : SystemSettings) (given inner : List String) (text : String), s.Fits →
      Padded (s.Listed given inner) text →
        SystemSettings.decoder.decode text = .ok (s.overlay given inner) :=
    fun _ _ _ _ hs h => Decoder.Reads.decode_padded h fun _ => reads_listed hs
  refine ⟨actors, systems, fun s hs => ?_, fun machine s hs => ?_⟩
  · have h := actors s ["close_timeout"] _ hs (padded_render s.listed_written)
    rwa [show s.overlay ["close_timeout"] = s by simp [ActorSettings.overlay]] at h
  · obtain ⟨n, -, hw⟩ := hs.workers
    have listed := padded_render (listed_written machine hw)
    have h := systems s fieldNames ["close_timeout"] _ hs listed
    rwa [overlay_fieldNames] at h

/-- Settings with a name and a number of workers. -/
def mixedSettings : SystemSettings := { name := "b", workers := .exactly 7 }

/-- A text that lists both, and settings of actors that list nothing. -/
def mixedText : String :=
  " \x7b\"x\":[1E+400,\"\\ud800\"],\"actor\":\x7b\"y\":null\x7d,\"na\\u006de\" :\"\\u0062\"," ++
    "\"default_pool_workers\":7\x7d\n"

theorem partial_settings_overlay_mixed :
    mixedSettings.Fits ∧
      Padded (mixedSettings.Listed ["name", "default_pool_workers", "actor"] []) mixedText ∧
      SystemSettings.decoder.decode mixedText = .ok mixedSettings := by
  have fits : mixedSettings.Fits :=
    ⟨⟨7, by decide, rfl⟩, ⟨by decide, by decide⟩, by decide, by decide⟩
  -- Under the key of no field there are a number that is too large and half of a character.
  have power : PowerForm ['E', '+', '4', '0', '0'] :=
    @PowerForm.digits 'E' ['+'] ['4', '0', '0'] (by simp) (by simp) ⟨by simp, by simp [isDigit]⟩
  have huge : NumberForm ['1', 'E', '+', '4', '0', '0'] :=
    @NumberForm.mk [] ['1'] [] _ (by simp) ⟨⟨by simp, by simp [isDigit]⟩, by simp⟩ .absent power
  have half : TextForm ['\\', 'u', 'd', '8', '0', '0'] :=
    .unit (@Hex4.mk 'd' '8' '0' '0' 13 8 0 0 rfl rfl rfl rfl) .nil
  have unknown := Derives.list
    (.item blank_nil (.number huge) blank_nil (.lastItem blank_nil (.text half) blank_nil))
  have actor : mixedSettings.actor.Listed []
      ('\x7b' :: (writtenText "y" ++ ':' :: ['n', 'u', 'l', 'l']) ++ ['\x7d']) := by
    refine ⟨_, .members (.last (memberText_written "y" _)), ⟨by simp, ?_⟩, by simp⟩
    simpa using Derives.null
  -- The key and the value of the name are written with escapes.
  have letters : Spells ['n'] 'n' ∧ Spells ['a'] 'a' ∧ Spells ['e'] 'e' := by
    refine ⟨.plain ?_, .plain ?_, .plain ?_⟩ <;> exact ⟨by decide, by decide, by decide⟩
  have escapedM : Spells ['\\', 'u', '0', '0', '6', 'd'] 'm' :=
    .unit (@Hex4.mk '0' '0' '6' 'd' 0 0 6 13 rfl rfl rfl rfl)
  have escapedB : Spells ['\\', 'u', '0', '0', '6', '2'] 'b' :=
    .unit (@Hex4.mk '0' '0' '6' '2' 0 0 6 2 rfl rfl rfl rfl)
  have key : Spelling ['n', 'a', '\\', 'u', '0', '0', '6', 'd', 'e'] "name".toList :=
    .cons letters.1 (.cons letters.2.1 (.cons escapedM (.cons letters.2.2 .nil)))
  have name := @TextOf.mk "b" _ (.cons escapedB .nil)
  have space : Blank [' '] := by simp [Blank, isBlank]
  have listed : mixedSettings.Listed ["name", "default_pool_workers", "actor"] [] _ :=
    ⟨_, .members (.cons (memberText_written "x" _) (.cons (memberText_written "actor" _)
      (.cons (.mk blank_nil key space blank_nil blank_nil)
        (.last (memberText_written "default_pool_workers" (digits 7)))))),
      { only := ⟨by simp [fieldNames], by simpa [fieldNames] using unknown⟩
        name := by simpa [mixedSettings] using name
        workers := by simp [mixedSettings]
        grace := by simp
        actor := by simpa using actor }⟩
  have padded : Padded _ mixedText :=
    ⟨[' '], _, ['\n'], space, listed, by simp [Blank, isBlank], by decide +kernel⟩
  exact ⟨fits, padded, partial_settings_overlay.2.1 _ _ _ _ fits padded⟩

end SystemSettings

end Troupe
