import HiveSDK.Interaction.Simulation
import HiveSDK.KeyValue.Log
import HiveSDK.OneDrive.Names
import HiveSDK.Service.Loopback

/-!
# The key-value store is a map from keys to lists

The abstract store maps every key to the list of its values; an operation that reports
success acts on the list of its key, one that fails does nothing. The operations of the SDK,
run against the service, implement it as long as no `get_values` is refused both its HTTP
clients: the runs without such a `get_values`, and no others, are runs of the abstract store with
the same operations, results and deliveries (`keyStore_refines_iff`).

The relation between the two (`Represents`) says that the file of a key is the log of its
values, absent when there are none, and never so long that its length could be taken for an
error. It is kept because `put_value` reads a length of 2 GiB and more as negative. What a
refused HTTP client makes of a length is longer than any file, so a single one is noticed: the
length and the number of bytes read do not agree.
-/

namespace HiveSDK

open Interaction C OneDrive

/-! ### The abstract store -/

/-- The public operations on keys. -/
inductive KeyOperation
  | put (key value : Bytes)
  | set (key value : Bytes)
  | get (key : Bytes)
  | delete (key : Bytes)

/-- An operation with the HTTP clients it was refused, its result, and what it delivered to the
callback. -/
structure KeyEvent where
  operation : KeyOperation
  refused : List HttpClientUser
  result : ℤ
  delivered : List (Bytes × Bytes × Bool)

/-- The lists of values. -/
abbrev Lists := Bytes → List Bytes

/-- The steps of the abstract store. -/
inductive KeyStoreStep (lists : Lists) : KeyEvent → Lists → Prop
  | failed (operation : KeyOperation) (refused : List HttpClientUser) :
      KeyStoreStep lists ⟨operation, refused, -1, []⟩ lists
  | put (key value : Bytes) (refused : List HttpClientUser) :
      KeyStoreStep lists ⟨.put key value, refused, 0, []⟩
        (Function.update lists key (lists key ++ [value]))
  | set (key value : Bytes) (refused : List HttpClientUser) :
      KeyStoreStep lists ⟨.set key value, refused, 0, []⟩ (Function.update lists key [value])
  | get (key : Bytes) (refused : List HttpClientUser) (log : List (Bytes × Bytes × Bool))
      (h : Delivered key (lists key) log) : KeyStoreStep lists ⟨.get key, refused, 0, log⟩ lists
  | delete (key : Bytes) (refused : List HttpClientUser) :
      KeyStoreStep lists ⟨.delete key, refused, 0, []⟩ (Function.update lists key [])

/-- What the lists are afterwards is determined. -/
theorem KeyStoreStep.functional {lists lists₁ lists₂ : Lists} {e : KeyEvent}
    (h₁ : KeyStoreStep lists e lists₁) (h₂ : KeyStoreStep lists e lists₂) : lists₁ = lists₂ := by
  generalize he : e = e' at h₂
  cases h₁ with
  | failed =>
    cases h₂ with
    | failed => rfl
    | get => rfl
    | _ => simp at he
  | put =>
    cases h₂ with
    | put => cases he; rfl
    | _ => simp at he
  | set =>
    cases h₂ with
    | set => cases he; rfl
    | _ => simp at he
  | get =>
    cases h₂ with
    | failed => rfl
    | get => rfl
    | _ => simp at he
  | delete =>
    cases h₂ with
    | delete => cases he; rfl
    | _ => simp at he

/-! ### The operations of the SDK -/

namespace KeyOperation

def key : KeyOperation → Bytes
  | put key _ | set key _ | get key | delete key => key

/-- The call of the public function on a OneDrive connection. -/
def call : KeyOperation → M OneDriveConnect ℤ
  | put key value => hivePutValue (some oneDriveMethods) (some key) (some value) value.length
  | set key value => hiveSetValue (some oneDriveMethods) (some key) (some value) value.length
  | get key => hiveGetValues (some oneDriveMethods) (some key) true
  | delete key => hiveDeleteKey (some oneDriveMethods) (some key)

end KeyOperation

/-- One operation against the service. -/
def Drive.KeyStep (S : Drive) (before : Thread OneDriveConnect × World) (e : KeyEvent)
    (after : Thread OneDriveConnect × World) : Prop :=
  Program.Exec S.refusing (e.operation.call before.1) (before.2, []) (.ok (e.result, after.1))
      (after.2, e.refused) ∧
    after.2.delivered = before.2.delivered ++ e.delivered

/-- The values of a key were asked for, and neither the length of its file nor its content. -/
def KeyEvent.Misread (e : KeyEvent) : Prop :=
  (∃ key, e.operation = .get key) ∧ OneDrive.Misread e.refused

/-- The URL of the requests on a key fits the buffer it is printed into. -/
def KeyFits (key : Bytes) : Prop := (itemUrl (fullPath KEYS_DIR key) []).length < MAX_URL_LEN

/-- The path of a key that fits is printed whole. -/
theorem KeyFits.snprintfPath {key : Bytes} (h : KeyFits key) :
    (snprintfPath KEYS_DIR key).1 = fullPath KEYS_DIR key := by
  refine List.take_of_length_le ?_
  simp only [KeyFits, itemUrl, List.length_append, fullPath, MAX_URL_LEN] at h
  simp only [List.length_append, PATH_MAX]
  omega

/-- The file of every key is the log of its values. -/
structure Represents (lists : Lists) (files : Files) : Prop where
  file : ∀ key, files (fullPath KEYS_DIR key) =
    if lists key = [] then none else some (entries (lists key))
  valid : ∀ key, ∀ value ∈ lists key, ValidValue value
  bounded : ∀ key, (entries (lists key)).length < 2 ^ 31 + 2 ^ 16

namespace Represents

variable {lists : Lists} {files : Files}

/-- The file of a key, absent or not, holds the entries of its values. -/
theorem getD (h : Represents lists files) (key : Bytes) :
    (files (fullPath KEYS_DIR key)).getD [] = entries (lists key) :=
  getD_entries (h.file key)

/-- It is not so large that its length would be read as an error. -/
private theorem bounded_file (h : Represents lists files) (key : Bytes) :
    Bounded files (fullPath KEYS_DIR key) := by
  intro content hcontent
  have hold := h.getD key
  rw [hcontent, Option.getD_some] at hold
  exact hold ▸ h.bounded key

/-- Different keys have different files. -/
private theorem fullPath_injective {key key' : Bytes}
    (h : fullPath KEYS_DIR key = fullPath KEYS_DIR key') : key = key' :=
  List.append_cancel_left h

/-- Replacing the list of one key and its file together. -/
theorem update (h : Represents lists files) (key : Bytes) {values : List Bytes}
    (hvalid : ∀ value ∈ values, ValidValue value)
    (hbounded : (entries values).length < 2 ^ 31 + 2 ^ 16) :
    Represents (Function.update lists key values)
      (Function.update files (fullPath KEYS_DIR key)
        (if values = [] then none else some (entries values))) where
  file key' := by
    rcases eq_or_ne key' key with rfl | hne
    · simp only [Function.update_self]
    · have hpath : fullPath KEYS_DIR key' ≠ fullPath KEYS_DIR key :=
        fun heq => hne (fullPath_injective heq)
      rw [Function.update_of_ne hpath, Function.update_of_ne hne, h.file]
  valid key' := by
    rcases eq_or_ne key' key with rfl | hne
    · rwa [Function.update_self]
    · rw [Function.update_of_ne hne]
      exact h.valid key'
  bounded key' := by
    rcases eq_or_ne key' key with rfl | hne
    · rwa [Function.update_self]
    · rw [Function.update_of_ne hne]
      exact h.bounded key'

end Represents

/-! ### One operation -/

section Spec

variable {S : Drive} {s : Thread OneDriveConnect} {w : World} {lists : Lists}

/-- What an operation leaves behind: a step of the abstract store, represented again; or an empty
value delivered. -/
inductive Performs (operation : KeyOperation) (lists : Lists) (s : Thread OneDriveConnect)
    (w : World) (rc : ℤ) (s' : Thread OneDriveConnect) (v : World × List HttpClientUser) : Prop
  | step (hconn : s'.conn = s.conn) (log : List (Bytes × Bytes × Bool)) (lists' : Lists)
      (hstep : KeyStoreStep lists ⟨operation, v.2, rc, log⟩ lists')
      (hrep : Represents lists' v.1.files) (hlog : v.1.delivered = w.delivered ++ log)
      (hread : ¬(⟨operation, v.2, rc, log⟩ : KeyEvent).Misread)
  | misread (key : Bytes) (hget : operation = .get key) (proceed : Bool)
      (rest : List (Bytes × Bytes × Bool))
      (hlog : v.1.delivered = w.delivered ++ (key, [], proceed) :: rest)
      (hread : OneDrive.Misread v.2)

/-- An operation that is no `get_values` reads nothing. -/
private theorem not_misread {e : KeyEvent} (h : ∀ key, e.operation ≠ .get key) : ¬e.Misread :=
  fun hmisread => hmisread.1.elim h

/-- A failed operation. -/
private theorem performs_failed {refused : List HttpClientUser} (hrep : Represents lists w.files)
    {operation : KeyOperation} (hread : ¬(⟨operation, refused, -1, []⟩ : KeyEvent).Misread)
    {s' : Thread OneDriveConnect} (hs' : s'.conn = s.conn) :
    Performs operation lists s w (-1) s' (w, refused) :=
  .step hs' [] lists (.failed operation refused) hrep (List.append_nil _).symm hread

/-- A method that writes the file of a key, called by its public function: the list of the
key is replaced when the file is. -/
private theorem performs_of_writes {operation : KeyOperation} {m : M OneDriveConnect ℤ}
    (hrep : Represents lists w.files) {key : Bytes} {values : List Bytes}
    (hstep : ∀ refused, KeyStoreStep lists ⟨operation, refused, 0, []⟩
      (Function.update lists key values))
    (hwrite : ∀ key', operation ≠ .get key') (hvalid : ∀ value ∈ values, ValidValue value)
    (hm : Script.wp S.handler anyFault m (fun rc s' w' =>
      Writes (fullPath KEYS_DIR key) (if values = [] then none else some (entries values))
        s w rc s' w' ∧ (rc = 0 → (entries values).length < 2 ^ 31 + 2 ^ 16)) s w) :
    Script.wp S.refusing anyFault (do reportInt (← m)) (Performs operation lists s w) s
      (w, []) := by
  simp only [Script.wp_bind, wp_reportInt]
  refine Script.wp_mono (Script.wp_noted_iff.mpr hm) (fun _ _ h => h) ?_
  rintro rc s' ⟨w', refused⟩ ⟨⟨rfl, hwrites⟩, hbounded⟩
  refine ⟨fun hneg => ?_, fun hpos => ?_⟩
  · rcases hwrites with ⟨rfl, -⟩ | ⟨-, hw⟩
    · exact absurd hneg (lt_irrefl 0)
    · obtain rfl : w' = w := hw
      exact performs_failed hrep (not_misread hwrite) (by rfl)
  · rcases hwrites with ⟨rfl, hw⟩ | ⟨hneg, -⟩
    · obtain rfl : w' = _ := hw
      exact .step rfl [] _ (hstep refused) (hrep.update key hvalid (hbounded rfl))
        (List.append_nil _).symm (not_misread hwrite)
    · exact absurd hneg hpos

/-- The arguments a value is accepted with. -/
theorem valueArgs_eq {C : Type} (connect : HiveConnect C) (key value : Bytes) :
    valueArgs (some connect) (some key) (some value) value.length = none ∨
      ValidValue value ∧
        valueArgs (some connect) (some key) (some value) value.length =
          some (connect, key, value) := by
  cases key with
  | nil => exact .inl rfl
  | cons b key =>
    simp only [valueArgs, nonempty?, List.take_length]
    split
    · exact .inl rfl
    · rename_i h
      exact .inr ⟨⟨by omega, by omega⟩, rfl⟩

/-- Each operation performs its step on the lists, or fails and leaves them. -/
theorem call_spec (hs : S.TokenValid s) (hrep : Represents lists w.files)
    (operation : KeyOperation) (hfits : KeyFits operation.key) :
    Script.wp S.refusing anyFault operation.call (Performs operation lists s w) s (w, []) := by
  -- the keys fit into the path buffer, so `snprintf` cuts nothing off
  have hpath := hfits.snprintfPath
  have hnone {rc : ℤ} : ¬(⟨operation, [], rc, []⟩ : KeyEvent).Misread :=
    fun h => List.not_mem_nil h.2.1
  cases operation with
  -- a put writes the entries of the file and the new one, or nothing
  | put key value =>
    simp only [KeyOperation.call, hivePutValue]
    rcases valueArgs_eq oneDriveMethods key value with hargs | ⟨hvalue, hargs⟩
    · rw [hargs]
      exact performs_failed hrep hnone (by rfl)
    rw [hargs]
    have hlen := hvalue.length_le
    refine performs_of_writes hrep (.put key value) (by rintro _ ⟨⟩) ?_ (Script.wp_mono
      (putValue_spec hs hpath hvalue (hrep.bounded_file key)) (fun _ _ h => h) ?_)
    · intro v hv
      rcases List.mem_append.mp hv with hv | hv
      · exact hrep.valid key v hv
      · exact List.mem_singleton.mp hv ▸ hvalue
    · rintro rc s' w' ⟨hwrites, hshort⟩
      rw [KeyOperation.key, hrep.getD] at hwrites hshort
      rw [if_neg (by simp), entries_append, entries_cons, entries_nil, List.append_nil]
      refine ⟨hwrites, fun hrc => ?_⟩
      have := hshort hrc
      simp only [List.length_append, length_kvEntry, HIVE_MAX_VALUE_LEN, kvHeaderSize] at hlen ⊢
      omega
  -- a set uploads one entry in the place of the file
  | set key value =>
    simp only [KeyOperation.call, hiveSetValue]
    rcases valueArgs_eq oneDriveMethods key value with hargs | ⟨hvalue, hargs⟩
    · rw [hargs]
      exact performs_failed hrep hnone (by rfl)
    rw [hargs]
    have hlen := hvalue.length_le
    refine performs_of_writes hrep (.set key value) (by rintro _ ⟨⟩) ?_ (Script.wp_mono
      (setValue_spec hs value hpath) (fun _ _ h => h) ?_)
    · exact fun v hv => List.mem_singleton.mp hv ▸ hvalue
    · intro rc s' w' hwrites
      rw [if_neg (by simp), entries_cons, entries_nil, List.append_nil]
      refine ⟨hwrites, fun _ => ?_⟩
      simp only [length_kvEntry, HIVE_MAX_VALUE_LEN, kvHeaderSize] at hlen ⊢
      omega
  -- a get changes nothing: it fails, delivers the list, or both clients are missing
  | get key =>
    simp only [KeyOperation.call, hiveGetValues]
    cases key with
    | nil => exact performs_failed hrep hnone (by rfl)
    | cons b key =>
      simp only [nonempty?, oneDriveMethods, Script.wp_bind, wp_reportInt]
      refine Script.wp_mono (getValues_spec hs hpath (hrep.valid (b :: key)) (hrep.file (b :: key))
        (hrep.bounded_file (b :: key))) (fun _ _ h => h) ?_
      rintro rc s' ⟨w', refused⟩ hgets
      cases hgets with
      | failed hs' hrc hw hread =>
        obtain rfl : w' = w := hw
        subst hs'
        exact ⟨fun _ => performs_failed hrep (fun h => hread h.2) (by rfl), fun h => absurd hrc h⟩
      | delivered hs' hrc log hlog hw hread =>
        obtain rfl : w' = w.deliver log := hw
        subst hs' hrc
        exact ⟨fun h => absurd h (lt_irrefl 0), fun _ => .step rfl log lists
          (.get (b :: key) refused log hlog) hrep rfl fun h => hread h.2⟩
      | misread proceed rest hw hread =>
        exact ⟨fun _ => .misread _ rfl proceed rest hw hread,
          fun _ => .misread _ rfl proceed rest hw hread⟩
  -- a delete removes the file; the list is empty afterwards
  | delete key =>
    simp only [KeyOperation.call, hiveDeleteKey]
    cases key with
    | nil => exact performs_failed hrep hnone (by rfl)
    | cons b key =>
      refine performs_of_writes hrep (.delete (b :: key)) (by rintro _ ⟨⟩) (by simp) (Script.wp_mono
        (deleteKey_spec hs hpath) (fun _ _ h => h) ?_)
      exact fun rc s' w' hwrites => ⟨hwrites, fun _ => by simp⟩

/-- A step against the service is a step of the abstract store, and the token stays valid. -/
theorem Drive.KeyStep.implements {c c' : Thread OneDriveConnect × World} {e : KeyEvent}
    (h : S.KeyStep c e c') (hs : S.TokenValid c.1) (hrep : Represents lists c.2.files)
    (hfits : KeyFits e.operation.key) (hread : ¬e.Misread) :
    ∃ lists', KeyStoreStep lists e lists' ∧ S.TokenValid c'.1 ∧ Represents lists' c'.2.files := by
  obtain ⟨operation, refused, rc, delivered⟩ := e
  obtain ⟨hexec, hdelivered⟩ := h
  have hends := Script.wp.of_exec (call_spec hs hrep operation hfits) hexec
  cases hends with
  | step hconn log lists' hstep hrep' hlog _ =>
    obtain rfl : delivered = log := List.append_cancel_left (hdelivered.symm.trans hlog)
    refine ⟨lists', hstep, fun now hnow => ?_, hrep'⟩
    -- the token of the connection stays the one that is valid
    rw [hconn]
    exact hs now hnow
  | misread key hget proceed rest hlog hrefused => exact absurd ⟨⟨key, hget⟩, hrefused⟩ hread

/-- No step of the abstract store is a `get_values` that could read nothing: the value delivered
is empty, and no list holds such a value. -/
theorem Drive.KeyStep.not_misread {c c' : Thread OneDriveConnect × World} {e : KeyEvent}
    (h : S.KeyStep c e c') (hs : S.TokenValid c.1) (hrep : Represents lists c.2.files)
    (hfits : KeyFits e.operation.key) {lists' : Lists} (hstep : KeyStoreStep lists e lists') :
    ¬e.Misread := by
  obtain ⟨operation, refused, rc, delivered⟩ := e
  obtain ⟨hexec, hdelivered⟩ := h
  have hends := Script.wp.of_exec (call_spec hs hrep operation hfits) hexec
  cases hends with
  | step _ log _ _ _ hlog hread =>
    obtain rfl : delivered = log := List.append_cancel_left (hdelivered.symm.trans hlog)
    exact hread
  | misread key hget proceed rest hlog _ =>
    intro _
    obtain rfl : delivered = (key, [], proceed) :: rest :=
      List.append_cancel_left (hdelivered.symm.trans hlog)
    subst hget
    cases hstep with
    | get _ _ _ hvalues =>
      generalize hlists : lists key = values at hvalues
      have hempty : ([] : Bytes) ∈ lists key := by
        rw [hlists]
        cases hvalues with
        | stopped => exact List.mem_cons_self
        | next => exact List.mem_cons_self
      exact absurd (hrep.valid key [] hempty).nonempty (lt_irrefl 0)

end Spec

/-! ### Runs -/

/-- In a run that the abstract store makes too, no `get_values` could read nothing. -/
private theorem not_misread_of_run {S : Drive} {c c' : Thread OneDriveConnect × World}
    {history : List KeyEvent} {lists lists' : Lists} (hrun : Run S.KeyStep c history c')
    (hs : S.TokenValid c.1) (hrep : Represents lists c.2.files)
    (hfits : ∀ e ∈ history, KeyFits e.operation.key)
    (hspec : Run KeyStoreStep lists history lists') :
    ∀ e ∈ history, ¬e.Misread := by
  induction hrun generalizing lists with
  | nil => exact fun e he => absurd he List.not_mem_nil
  | @cons c c₁ c' e history hstep _ ih =>
    cases hspec with
    | cons hspec hspecs =>
      have hkey := hfits e List.mem_cons_self
      have hread := hstep.not_misread hs hrep hkey hspec
      obtain ⟨lists₁, hspec₁, hs₁, hrep₁⟩ := hstep.implements hs hrep hkey hread
      obtain rfl := hspec.functional hspec₁
      intro e' he'
      rcases List.mem_cons.mp he' with rfl | he'
      · exact hread
      · exact ih hs₁ hrep₁ (fun e he => hfits e (List.mem_cons_of_mem _ he)) hspecs e' he'

/-- A run of operations on keys, from an empty store, is a run of the abstract store if and only if
no `get_values` in it was refused both its HTTP clients. -/
theorem keyStore_refines_iff {S : Drive} {s s' : Thread OneDriveConnect} {w w' : World}
    {history : List KeyEvent} (hs : S.TokenValid s)
    (hempty : ∀ key, w.files (fullPath KEYS_DIR key) = none)
    (hfits : ∀ e ∈ history, KeyFits e.operation.key)
    (hrun : Run S.KeyStep (s, w) history (s', w')) :
    (∃ lists, Run KeyStoreStep (fun _ => []) history lists ∧ Represents lists w'.files) ↔
      ∀ e ∈ history, ¬e.Misread := by
  have hstart : Represents (fun _ => []) w.files :=
    ⟨fun key => by simp [hempty], by simp, by simp⟩
  constructor
  · rintro ⟨lists, hspec, -⟩
    exact not_misread_of_run hrun hs hstart hfits hspec
  · intro hread
    have hstep : ∀ (c : Thread OneDriveConnect × World) (e : KeyEvent)
        (c' : Thread OneDriveConnect × World) (lists : Lists),
        KeyFits e.operation.key ∧ ¬e.Misread →
        S.TokenValid c.1 ∧ Represents lists c.2.files → S.KeyStep c e c' →
          ∃ lists', KeyStoreStep lists e lists' ∧
            S.TokenValid c'.1 ∧ Represents lists' c'.2.files :=
      fun _ _ _ _ he hc hstep => hstep.implements hc.1 hc.2 he.1 he.2
    obtain ⟨lists, hspec, -, hrep⟩ :=
      Run.simulation hstep hrun (fun e he => ⟨hfits e he, hread e he⟩) ⟨hs, hstart⟩
    exact ⟨lists, hspec, hrep⟩

/-- The world with one and with two values put under one key. -/
def oneValue : World := emptyWorld.setFile (ascii "/KeyValues/k") (some (kvEntry (ascii "a")))

def twoValues : World :=
  oneValue.setFile (ascii "/KeyValues/k") (some (kvEntry (ascii "a") ++ kvEntry (ascii "b")))

def putA : KeyEvent := ⟨.put (ascii "k") (ascii "a"), [], 0, []⟩
def putB : KeyEvent := ⟨.put (ascii "k") (ascii "b"), [], 0, []⟩

theorem keyFits_k : KeyFits (ascii "k") := by
  unfold KeyFits
  decide

theorem keyStore_refines_iff_twoPuts :
    (∃ lists, Run KeyStoreStep (fun _ => []) [putA, putB] lists ∧
      Represents lists twoValues.files) ↔ ∀ e ∈ [putA, putB], ¬e.Misread := by
  have hsound := notedReply_sound (f := CallEvent.refused) Drive.serve_sound
  have hputA : (putA.operation.call freshToken).runIn (notedReply CallEvent.refused Drive.serve)
      (emptyWorld, []) = some (.ok (0, freshToken), (oneValue, [])) := rfl
  have hputB : (putB.operation.call freshToken).runIn (notedReply CallEvent.refused Drive.serve)
      (oneValue, []) = some (.ok (0, freshToken), (twoValues, [])) := rfl
  have hfits : ∀ e ∈ [putA, putB], KeyFits e.operation.key := by
    simp [putA, putB, KeyOperation.key, keyFits_k]
  have hstepA : Drive.loopback.KeyStep (freshToken, emptyWorld) putA (freshToken, oneValue) :=
    ⟨Program.exec_of_runIn hsound hputA, rfl⟩
  have hstepB : Drive.loopback.KeyStep (freshToken, oneValue) putB (freshToken, twoValues) :=
    ⟨Program.exec_of_runIn hsound hputB, rfl⟩
  exact keyStore_refines_iff loopback_tokenValid (fun _ => rfl) hfits
    (.cons hstepA (.cons hstepB (.nil _)))

/-- No HTTP client can be had, and the user wants one value. -/
def Drive.starve (w : World) : (i : Call) → Option (i.Reply × World)
  | .gettimeofday => some (⟨1, 0⟩, w)
  | .malloc _ => some (true, w)
  | .httpClientNew _ => some (false, w)
  | .valuesCallback key value => some (false, w.deliver [(key, value, false)])
  | _ => none

theorem Drive.starve_sound (w : World) (i : Call) (r : i.Reply) (w' : World)
    (h : Drive.starve w i = some (r, w')) : Drive.loopback.handler w i r w' := by
  match i, r, h with
  | .gettimeofday, _, h => cases h; exact ⟨rfl, rfl⟩
  | .malloc _, _, h => cases h; rfl
  | .httpClientNew _, _, h => cases h; rfl
  | .valuesCallback key value, _, h => cases h; rfl

/-- The error of a missing HTTP client, taken for the length of a file. -/
private theorem getSized_starved (path key : Bytes) (w : World) :
    Program.Exec Drive.loopback.refusing
    (getSized path key (hiveGeneralError HIVEERR_OUT_OF_MEMORY) freshToken) (w, [.getFileLength])
    (.ok (0, freshToken)) (w.deliver [(key, [], false)], [.getFileLength, .getFileToBuffer]) := by
  have hsound := notedReply_sound (f := CallEvent.refused) Drive.starve_sound
  have hmemory := hiveGeneralError_outOfMemory
  generalize hsize : hiveGeneralError HIVEERR_OUT_OF_MEMORY = size at hmemory ⊢
  have hsmall : ¬(0 < size ∧ size ≤ kvHeaderSize) := by
    simp only [kvHeaderSize]
    omega
  have hnat : ((toSize size).toNat : ℤ) = size := by
    rw [toSize_eq_self (by omega) (by omega), Int.toNat_of_nonneg (by omega)]
  unfold getSized
  rw [if_neg hsmall, if_neg (by omega)]
  generalize (toSize size).toNat = n at hnat ⊢
  have hread : (getFileToBufferAt path (List.replicate n 0) n freshToken).runIn
      (notedReply CallEvent.refused Drive.starve) (w, [.getFileLength]) =
        some (.ok ((.err (hiveGeneralError HIVEERR_OUT_OF_MEMORY), List.replicate n 0), freshToken),
          (w, [.getFileLength, .getFileToBuffer])) := rfl
  rw [hsize] at hread
  refine Script.exec_ask (r := true) ⟨rfl, (List.append_nil _).symm⟩ ?_
  refine Script.exec_bind (Program.exec_of_runIn hsound hread) ?_
  show Program.Exec _ ((if size < 0 then _ else if size ≠ size then _ else
    getValuesLoop key (List.replicate n 0) size) freshToken) _ _ _
  rw [if_neg (by omega), if_neg (not_not.mpr rfl), ← hnat, getValuesLoop_zeros key
    (by simp only [kvHeaderSize]; omega) (by omega)]
  have hcallback : Drive.loopback.refusing (w, [.getFileLength, .getFileToBuffer])
      (.valuesCallback key []) false
      (w.deliver [(key, [], false)], [.getFileLength, .getFileToBuffer]) := ⟨rfl, rfl⟩
  exact Script.exec_ask hcallback (.ret _ _)

def getK : KeyEvent :=
  ⟨.get (ascii "k"), [.getFileLength, .getFileToBuffer], 0, [(ascii "k", [], false)]⟩

/-- With both its HTTP clients refused, `get_values` reports success on an empty store, and hands
out an empty value. -/
private theorem getK_step : Drive.loopback.KeyStep (freshToken, emptyWorld) getK
    (freshToken, emptyWorld.deliver [(ascii "k", [], false)]) := by
  have hsound := notedReply_sound (f := CallEvent.refused) Drive.starve_sound
  have hlength : (getFileLengthAt (snprintfPath KEYS_DIR (ascii "k")).1 freshToken).runIn
      (notedReply CallEvent.refused Drive.starve) (emptyWorld, []) =
        some (.ok (.err (hiveGeneralError HIVEERR_OUT_OF_MEMORY), freshToken),
          (emptyWorld, [.getFileLength])) := rfl
  have hvalues : Program.Exec Drive.loopback.refusing (getValues (ascii "k") freshToken)
      (emptyWorld, []) (.ok (0, freshToken)) (emptyWorld.deliver [(ascii "k", [], false)],
        [.getFileLength, .getFileToBuffer]) := by
    refine Script.exec_bind (Program.exec_of_runIn hsound hlength) ?_
    rw [Exit.ssize_err, sizeOrAbsent_outOfMemory]
    exact getSized_starved _ _ _
  exact ⟨Script.exec_bind hvalues (.ret _ _), rfl⟩

/-- There is a run of the SDK that is none of the abstract store. -/
theorem keyStore_not_refines : ¬∀ (S : Drive) (s s' : Thread OneDriveConnect) (w w' : World)
    (history : List KeyEvent), S.TokenValid s →
      (∀ key, w.files (fullPath KEYS_DIR key) = none) →
      (∀ e ∈ history, KeyFits e.operation.key) → Run S.KeyStep (s, w) history (s', w') →
        ∃ lists, Run KeyStoreStep (fun _ => []) history lists ∧ Represents lists w'.files := by
  intro h
  obtain ⟨lists, hspec, -⟩ := h Drive.loopback freshToken freshToken emptyWorld _ [getK]
    loopback_tokenValid (fun _ => rfl) (by simp [getK, KeyOperation.key, keyFits_k])
    (.cons getK_step (.nil _))
  cases hspec with
  | cons hstep _ =>
    cases hstep with
    | get _ _ _ hdelivered => cases hdelivered

end HiveSDK
