import HiveSDK.Interaction.Simulation
import HiveSDK.OneDrive.Names
import HiveSDK.Service.Loopback
import HiveSDK.Service.Healthy

/-!
# What was put is what is got

The abstract file store maps names to contents, next to a local disk. Runs of the public
operations that put and delete files are runs of it (`fileStore_refines`), and after each of
them the three reading operations return what the store holds, as long as nothing of what
they ask for is refused (`Drive.healthy`): the length, the content at the front of a buffer
that is large enough, and the content in a new local file.
-/

namespace HiveSDK

open Interaction C OneDrive

/-! ### The abstract store -/

/-- The operations that change files, and a change somebody else makes to the local disk. -/
inductive FileAction
  | putBuffer (content name : Bytes)
  | putFile (src name : Bytes)
  | delete (name : Bytes)
  | edit (disk : Bytes → Option Bytes)

/-- An action with its result. -/
structure FileEvent where
  action : FileAction
  result : ℤ

/-- The contents by name, and the local files. -/
structure FileStore where
  contents : Bytes → Option Bytes
  disk : Bytes → Option Bytes

namespace FileStore

/-- The store with one file replaced or removed. -/
def set (store : FileStore) (name : Bytes) (content : Option Bytes) : FileStore :=
  { store with contents := Function.update store.contents name content }

/-- The steps of the abstract store. -/
inductive Step (store : FileStore) : FileEvent → FileStore → Prop
  | failed (action : FileAction) : Step store ⟨action, -1⟩ store
  | putBuffer (content name : Bytes) :
      Step store ⟨.putBuffer content name, 0⟩ (store.set name (some content))
  | putFile (src name content : Bytes) (h : store.disk src = some content) :
      Step store ⟨.putFile src name, 0⟩ (store.set name (some content))
  | delete (name : Bytes) : Step store ⟨.delete name, 0⟩ (store.set name none)
  | edit (disk : Bytes → Option Bytes) :
      Step store ⟨.edit disk, 0⟩ { store with disk := disk }

end FileStore

/-! ### The operations of the SDK -/

/-- The URL of the requests on a file fits the buffer it is printed into. -/
def NameFits (name : Bytes) : Prop := (itemUrl (fullPath FILES_DIR name) []).length < MAX_URL_LEN

/-- The path of a name that fits has room in its buffer. -/
theorem NameFits.length_lt {name : Bytes} (h : NameFits name) :
    (fullPath FILES_DIR name).length < PATH_MAX := by
  simp only [NameFits, itemUrl, List.length_append, MAX_URL_LEN] at h
  simp only [PATH_MAX]
  omega

/-- So it is printed whole. -/
theorem NameFits.snprintfPath {name : Bytes} (h : NameFits name) :
    snprintfPath FILES_DIR name = (fullPath FILES_DIR name, true) := by
  have hlt := h.length_lt
  unfold HiveSDK.snprintfPath
  rw [show FILES_DIR ++ ascii "/" ++ name = fullPath FILES_DIR name from rfl]
  simp only [List.take_of_length_le (show (fullPath FILES_DIR name).length ≤ PATH_MAX - 1 by omega),
    hlt, decide_true]

namespace FileAction

/-- The name the action is about fits. -/
def Fits : FileAction → Prop
  | putBuffer _ name | putFile _ name | delete name => NameFits name
  | edit _ => True

end FileAction

/-- One action against the service. -/
inductive Drive.FileStep (S : Drive) (s : Thread OneDriveConnect) (w : World) :
    FileEvent → Thread OneDriveConnect → World → Prop
  | putBuffer (content name : Bytes) {rc : ℤ} {s' : Thread OneDriveConnect} {w' : World}
      (h : Program.Exec S.handler (hivePutFileFromBuffer (some oneDriveMethods) (some content)
        content.length (some name) s) w (.ok (rc, s')) w') :
      FileStep S s w ⟨.putBuffer content name, rc⟩ s' w'
  | putFile (src name : Bytes) {rc : ℤ} {s' : Thread OneDriveConnect} {w' : World}
      (h : Program.Exec S.handler (hivePutFile (some oneDriveMethods) (some src) (some name) s) w
        (.ok (rc, s')) w') :
      FileStep S s w ⟨.putFile src name, rc⟩ s' w'
  | delete (name : Bytes) {rc : ℤ} {s' : Thread OneDriveConnect} {w' : World}
      (h : Program.Exec S.handler (hiveDeleteFile (some oneDriveMethods) (some name) s) w
        (.ok (rc, s')) w') :
      FileStep S s w ⟨.delete name, rc⟩ s' w'
  | edit (disk : Bytes → Option Bytes) : FileStep S s w ⟨.edit disk, 0⟩ s { w with disk := disk }

/-- The service and the disk hold what the store says, and nothing longer than a file can be. -/
structure FileStore.Represents (store : FileStore) (w : World) : Prop where
  file : ∀ name, w.files (fullPath FILES_DIR name) = store.contents name
  disk : w.disk = store.disk
  bounded : ∀ name content, store.contents name = some content →
    content.length ≤ HIVE_MAX_FILE_SIZE
  unnamed : store.contents [] = none

namespace FileStore.Represents

variable {store : FileStore} {w : World}

/-- Replacing a file on both sides. -/
theorem set (h : store.Represents w) {name : Bytes} (hname : name ≠ []) {content : Option Bytes}
    (hbounded : ∀ c, content = some c → c.length ≤ HIVE_MAX_FILE_SIZE) :
    (store.set name content).Represents (w.setFile (fullPath FILES_DIR name) content) where
  file name' := by
    simp only [World.setFile, FileStore.set]
    rcases eq_or_ne name' name with rfl | hne
    · simp only [Function.update_self]
    · have hpath : fullPath FILES_DIR name' ≠ fullPath FILES_DIR name :=
        fun heq => hne (List.append_cancel_left heq)
      rw [Function.update_of_ne hpath, Function.update_of_ne hne, h.file]
  disk := h.disk
  bounded name' := by
    simp only [FileStore.set]
    rcases eq_or_ne name' name with rfl | hne
    · rw [Function.update_self]
      exact hbounded
    · rw [Function.update_of_ne hne]
      exact h.bounded name'
  unnamed := (Function.update_of_ne hname.symm _ _).trans h.unnamed

end FileStore.Represents

section Spec

variable {S : Drive} {s : Thread OneDriveConnect} {w : World} {store : FileStore}

/-- What an action leaves behind: a step of the abstract store, represented again. -/
def FileStore.Implements (store : FileStore) (action : FileAction) (s : Thread OneDriveConnect)
    (rc : ℤ) (s' : Thread OneDriveConnect) (w' : World) : Prop :=
  s'.conn = s.conn ∧ ∃ store', store.Step ⟨action, rc⟩ store' ∧ store'.Represents w'

/-- A method that writes a file, called by its public function. -/
theorem FileStore.implements_of_writes {action : FileAction} {m : M OneDriveConnect ℤ}
    (hrep : store.Represents w) {name : Bytes} (hname : name ≠ []) {content : Option Bytes}
    (hstep : store.Step ⟨action, 0⟩ (store.set name content))
    (hbounded : ∀ c, content = some c → c.length ≤ HIVE_MAX_FILE_SIZE)
    (hm : Script.wp S.handler anyFault m (Writes (fullPath FILES_DIR name) content s w) s w) :
    Script.wp S.handler anyFault (do reportInt (← m)) (store.Implements action s) s w := by
  simp only [Script.wp_bind, wp_reportInt]
  refine Script.wp_mono hm (fun _ _ h => h) ?_
  rintro rc s' w' ⟨rfl, ⟨rfl, rfl⟩ | ⟨hneg, rfl⟩⟩
  · exact ⟨fun h => absurd h (lt_irrefl 0), fun _ => ⟨rfl, _, hstep, hrep.set hname hbounded⟩⟩
  · exact ⟨fun _ => ⟨rfl, store, .failed action, hrep⟩, fun h => absurd hneg h⟩

/-- A put does what the store does: it is stored, or fails, or is left in doubt. -/
theorem hivePutFileFromBuffer_spec (hs : S.TokenValid s) (hrep : store.Represents w)
    {action : FileAction} {content name : Bytes} (hfits : NameFits name)
    (hstep : store.Step ⟨action, 0⟩ (store.set name (some content))) :
    Script.wp S.handler anyFault (hivePutFileFromBuffer (some oneDriveMethods) (some content)
      content.length (some name)) (store.Implements action s) s w := by
  have failed {e : ℤ} : Script.wp S.handler anyFault (failWith e) (store.Implements action s) s w :=
    ⟨rfl, store, .failed action, hrep⟩
  unfold hivePutFileFromBuffer
  cases name with
  | nil => exact failed
  | cons b name =>
    simp only [nonempty?, reduceCtorEq, false_and, false_or, oneDriveMethods, Option.getD_some,
      List.take_length]
    split
    · exact failed
    · rename_i hlong
      refine FileStore.implements_of_writes hrep (by simp) hstep ?_ ?_
      · rintro _ ⟨⟩
        omega
      · rw [putFileFromBuffer, hfits.snprintfPath]
        exact putFileFromBufferAt_spec hs _ content

/-- A local file is read whole, or an error is recorded. -/
theorem readLocalFile_spec (path : Bytes) :
    Script.wp S.handler anyFault (readLocalFile path)
      (fun r s' w' => w' = w ∧ s'.conn = s.conn ∧ ∀ content, r = some content →
        s' = s ∧ w.disk path = some content) s w := by
  have hmax : (HIVE_MAX_FILE_SIZE : ℤ) < 2 ^ 63 := by decide
  unfold readLocalFile
  simp only [Script.wp_bind, Script.wp_ask]
  rintro opened w ⟨-, rfl⟩
  cases opened with
  | error e =>
    simp only [Script.wp_bind, Script.wp_modify, Script.wp_pure]
    exact ⟨trivial, trivial, by simp⟩
  | ok _ =>
    simp only [Script.wp_bind, Script.wp_ask, Script.wp_ite, Script.wp_modify, Script.wp_pure]
    rintro n w ⟨hn, rfl⟩
    refine ⟨fun _ => ⟨rfl, trivial, by simp⟩, fun hle => ?_⟩
    rintro made w ⟨rfl⟩
    refine ⟨fun _ => ⟨rfl, trivial, by simp⟩, fun _ => ?_⟩
    rintro data w ⟨hdata, rfl⟩
    cases data with
    | error e =>
      simp only [Script.wp_bind, Script.wp_ask, Script.wp_modify, Script.wp_pure]
      rintro e w ⟨rfl⟩
      exact ⟨rfl, trivial, by simp⟩
    | ok data =>
      simp only [Script.wp_bind, Script.wp_ask, Script.wp_ite, Script.wp_modify, Script.wp_pure]
      refine ⟨?_, fun hlen => ⟨trivial, trivial, ?_⟩⟩
      · rintro _ e w ⟨rfl⟩
        exact ⟨rfl, trivial, by simp⟩
      rintro _ ⟨⟩
      -- the whole file was read: as many bytes as it is long
      obtain ⟨-, content, hcontent, hprefix⟩ := hdata data rfl
      rcases hn with rfl | ⟨h0, hlt, hlength⟩
      · exact absurd (show (HIVE_MAX_FILE_SIZE : ℤ) < toSize (-1) by decide) hle
      rw [hcontent, Option.map_some, Option.some.injEq] at hlength
      have hself : toSize n = n := toSize_eq_self h0 (lt_trans hlt (by norm_num))
      rw [not_not, hself, ← hlength] at hlen
      exact ⟨trivial, by rw [hcontent, hprefix.eq_of_length hlen]⟩

/-- One action is one step of the abstract store. -/
theorem FileStep.implements (hs : S.TokenValid s) (hrep : store.Represents w) {e : FileEvent}
    (hfits : e.action.Fits) {s' : Thread OneDriveConnect} {w' : World}
    (hstep : S.FileStep s w e s' w') : store.Implements e.action s e.result s' w' := by
  cases hstep with
  | putBuffer content name h =>
    exact Script.wp.of_exec (hivePutFileFromBuffer_spec hs hrep hfits (.putBuffer content name)) h
  | putFile src name h =>
    refine Script.wp.of_exec (F := anyFault) ?_ h
    unfold hivePutFile
    cases src with
    | nil => exact ⟨rfl, store, .failed _, hrep⟩
    | cons a src =>
      cases name with
      | nil => exact ⟨rfl, store, .failed _, hrep⟩
      | cons b name =>
        simp only [nonempty?, Script.wp_bind]
        refine Script.wp_mono (readLocalFile_spec (a :: src)) (fun _ _ h => h) ?_
        rintro (_ | content) s₁ w₁ ⟨rfl, hconn, hread⟩
        · exact ⟨hconn, store, .failed _, hrep⟩
        · obtain ⟨rfl, hcontent⟩ := hread content rfl
          rw [hrep.disk] at hcontent
          exact hivePutFileFromBuffer_spec hs hrep hfits (.putFile _ _ content hcontent)
  | delete name h =>
    refine Script.wp.of_exec (F := anyFault) ?_ h
    unfold hiveDeleteFile
    cases name with
    | nil => exact ⟨rfl, store, .failed _, hrep⟩
    | cons b name =>
      refine FileStore.implements_of_writes hrep (by simp) (.delete (b :: name)) (by simp) ?_
      unfold deleteFile
      rw [NameFits.snprintfPath hfits]
      exact Script.wp_mono (deleteFileAt_spec hs _) (fun _ _ h => h) fun _ _ _ h => h.1
  | edit disk =>
    exact ⟨rfl, _, .edit disk, ⟨hrep.file, rfl, hrep.bounded, hrep.unnamed⟩⟩

end Spec

/-- Every run of actions on files, from an empty service, is a run of the abstract store. -/
private theorem fileStore_refines {S : Drive} {s s' : Thread OneDriveConnect} {w w' : World}
    {history : List FileEvent} (hs : S.TokenValid s)
    (hempty : ∀ name, w.files (fullPath FILES_DIR name) = none)
    (hfits : ∀ e ∈ history, e.action.Fits)
    (hrun : Run (fun c e c' => S.FileStep c.1 c.2 e c'.1 c'.2) (s, w) history (s', w')) :
    ∃ store, Run FileStore.Step ⟨fun _ => none, w.disk⟩ history store ∧ store.Represents w' ∧
      s'.conn = s.conn := by
  have hstep : ∀ (c : Thread OneDriveConnect × World) (e : FileEvent)
      (c' : Thread OneDriveConnect × World) (store : FileStore), e.action.Fits →
      c.1.conn = s.conn ∧ store.Represents c.2 → S.FileStep c.1 c.2 e c'.1 c'.2 →
        ∃ store', store.Step e store' ∧ c'.1.conn = s.conn ∧ store'.Represents c'.2 := by
    rintro ⟨s₁, w₁⟩ e ⟨s₂, w₂⟩ store hname ⟨hconn, hrep⟩ hstep
    have hvalid : S.TokenValid s₁ := fun now hnow => by
      rw [hconn]
      exact hs now hnow
    obtain ⟨hconn', store', hspec, hrep'⟩ := FileStep.implements hvalid hrep hname hstep
    exact ⟨store', hspec, hconn'.trans hconn, hrep'⟩
  have hstart : FileStore.Represents ⟨fun _ => none, w.disk⟩ w := ⟨hempty, rfl, by simp, rfl⟩
  obtain ⟨store, hspec, hconn, hrep⟩ := Run.simulation hstep hrun hfits ⟨rfl, hstart⟩
  exact ⟨store, hspec, hrep, hconn⟩

/-! ### Reading what was put -/

/-- The three reading operations return the content held under `name`, whatever of the service
and the disk they meet, as long as nothing they ask for is refused. -/
structure Gets (S : Drive) (s : Thread OneDriveConnect) (w : World) (name content : Bytes) :
    Prop where
  length : Script.wp S.healthy noFault (hiveGetFileLength (some oneDriveMethods) (some name))
    (fun n _ w' => n = content.length ∧ w' = w) s w
  buffer : ∀ block : Bytes, 0 < block.length → block.length < 2 ^ 64 →
    content.length ≤ block.length → Script.wp S.healthy noFault
      (hiveGetFileToBuffer (some oneDriveMethods) (some name) (some block) block.length)
      (fun r _ w' => r = ((content.length : ℤ), content ++ block.drop content.length) ∧ w' = w) s w
  file : ∀ dst, dst ≠ [] → Script.wp S.healthy noFault
    (hiveGetFile (some oneDriveMethods) (some name) (some dst))
    (fun n _ w' => n = content.length ∧ w' = w.setDisk dst (some content)) s w

/-- A buffer that holds the file is not too small. -/
private theorem not_bufferTooSmall {buflen n : ℕ} (hbuflen : buflen < 2 ^ 64) (hn : n ≤ buflen) :
    ¬BufferTooSmall buflen n := by
  rintro ⟨hpos, hlt⟩
  by_cases hhalf : buflen < 2 ^ 63
  · rw [toLong_eq_self (by omega) (by omega)] at hlt
    omega
  · exact absurd hpos (toLong_neg (by omega) (by omega)).not_gt

section Healthy

variable {S : Drive} {s : Thread OneDriveConnect} {w : World} {name content : Bytes}

/-- A healthy service announces the length of the file it holds. -/
private theorem hiveGetFileLength_healthy (hs : S.TokenValid s)
    (htoken : s.conn.token.accessToken.isSome) (hname : name ≠ []) (hfits : NameFits name)
    (hfile : w.files (fullPath FILES_DIR name) = some content) :
    Script.wp S.healthy noFault (hiveGetFileLength (some oneDriveMethods) (some name))
      (fun n s' w' => s' = s ∧ w' = w ∧ n = content.length) s w := by
  cases name with
  | nil => exact absurd rfl hname
  | cons b name =>
    simp only [hiveGetFileLength, nonempty?, oneDriveMethods, getFileLength, hfits.snprintfPath,
      Bool.not_true, Bool.false_eq_true, if_false, Script.wp_bind]
    refine Script.wp_mono (getFileLengthAt_healthy hs htoken hfits hfile) (fun _ _ h => h) ?_
    rintro _ _ _ ⟨rfl, rfl, rfl, -⟩
    simp

/-- It sends the content into a block that has room. -/
private theorem hiveGetFileToBuffer_healthy (hs : S.TokenValid s)
    (htoken : s.conn.token.accessToken.isSome) (hname : name ≠ []) (hfits : NameFits name)
    (hfile : w.files (fullPath FILES_DIR name) = some content) (block : Bytes)
    (hpos : 0 < block.length) (hblock : block.length < 2 ^ 64)
    (hroom : content.length ≤ block.length) :
    Script.wp S.healthy noFault
      (hiveGetFileToBuffer (some oneDriveMethods) (some name) (some block) block.length)
      (fun r s' w' => s' = s ∧ w' = w ∧
        r = ((content.length : ℤ), content ++ block.drop content.length)) s w := by
  cases name with
  | nil => exact absurd rfl hname
  | cons b name =>
    simp only [hiveGetFileToBuffer, nonempty?, oneDriveMethods, getFileToBuffer,
      hfits.snprintfPath, Bool.not_true, Bool.false_eq_true, if_false, Script.wp_bind, hpos.ne']
    refine Script.wp_mono (getFileToBufferAt_healthy hs htoken hfits hfile hroom
      (not_bufferTooSmall hblock hroom)) (fun _ _ h => h) ?_
    rintro _ _ _ ⟨rfl, rfl, rfl⟩
    simp

/-- It sends the content into a new local file. -/
private theorem hiveGetFile_healthy (hs : S.TokenValid s) (htoken : s.conn.token.accessToken.isSome)
    (hname : name ≠ []) (hfits : NameFits name)
    (hfile : w.files (fullPath FILES_DIR name) = some content)
    (hlen : content.length ≤ HIVE_MAX_FILE_SIZE) {dst : Bytes} (hdst : dst ≠ []) :
    Script.wp S.healthy noFault (hiveGetFile (some oneDriveMethods) (some name) (some dst))
      (fun n s' w' => s' = s ∧ n = content.length ∧ w' = w.setDisk dst (some content)) s w := by
  have hmax : HIVE_MAX_FILE_SIZE < 2 ^ 64 := by decide
  have hlength := hiveGetFileLength_healthy (w := w) hs htoken hname hfits hfile
  obtain ⟨b, name, rfl⟩ := List.exists_cons_of_ne_nil hname
  obtain ⟨c, dst, rfl⟩ := List.exists_cons_of_ne_nil hdst
  simp only [hiveGetFile, createFile, nonempty?, Script.wp_bind, Script.wp_ite, Script.wp_pure]
  refine Script.wp_mono hlength (fun _ _ h => h) ?_
  rintro _ s w ⟨rfl, rfl, rfl⟩
  refine ⟨fun h => absurd h (Int.natCast_nonneg _).not_gt, fun _ => ?_⟩
  simp only [Script.wp_ask]
  rintro _ _ ⟨⟨-, rfl⟩, rfl⟩
  simp only [if_true, Script.wp_ite, Script.wp_pure, Script.wp_bind, Script.wp_ask,
    Int.toNat_natCast]
  refine ⟨fun hzero => ?_, fun hne => ?_⟩
  · obtain rfl : content = [] := List.eq_nil_of_length_eq_zero (by omega)
    exact ⟨trivial, rfl, rfl⟩
  rintro _ _ ⟨⟨⟩, rfl⟩
  refine ⟨fun h => by simp at h, fun _ => ?_⟩
  have hzeros : (List.replicate content.length (0 : UInt8)).length = content.length :=
    List.length_replicate
  have hbuffer := hiveGetFileToBuffer_healthy (w := w.setDisk (c :: dst) (some [])) hs htoken hname
    hfits hfile (List.replicate content.length 0) (by omega) (by omega) hzeros.ge
  rw [hzeros] at hbuffer
  refine Script.wp_mono hbuffer (fun _ _ h => h) ?_
  rintro _ s _ ⟨rfl, rfl, rfl⟩
  refine ⟨fun h => absurd h (Int.natCast_nonneg _).not_gt, fun _ => ?_⟩
  rw [List.drop_eq_nil_of_le hzeros.le, List.append_nil]
  simp only [writeBlock, Int.toNat_natCast, lt_irrefl, if_false, List.take_length, Script.wp_ask]
  rintro _ _ ⟨hwrite, rfl⟩
  obtain ⟨-, rfl⟩ := hwrite
  simp only [Script.wp_ite, Script.wp_pure, ne_eq, not_true_eq_false, false_imp_iff,
    not_false_eq_true, true_imp_iff, true_and, List.take_length, World.setDisk,
    Function.update_self, Option.getD_some, List.nil_append, Function.update_idem]

end Healthy

/-- After every run of puts and deletes, the reading operations return the content last put
under a name and not deleted since. -/
theorem gets_of_run {S : Drive} {s s' : Thread OneDriveConnect} {w w' : World}
    {history : List FileEvent} (hs : S.TokenValid s) (htoken : s.conn.token.accessToken.isSome)
    (hempty : ∀ name, w.files (fullPath FILES_DIR name) = none)
    (hfits : ∀ e ∈ history, e.action.Fits)
    (hrun : Run (fun c e c' => S.FileStep c.1 c.2 e c'.1 c'.2) (s, w) history (s', w')) :
    ∃ store, Run FileStore.Step ⟨fun _ => none, w.disk⟩ history store ∧
      ∀ name content, store.contents name = some content → NameFits name →
        Gets S s' w' name content := by
  obtain ⟨store, hspec, hrep, hconn⟩ := fileStore_refines hs hempty hfits hrun
  refine ⟨store, hspec, fun name content hcontent hname => ?_⟩
  have hvalid : S.TokenValid s' := fun now hnow => by
    rw [hconn]
    exact hs now hnow
  rw [← hconn] at htoken
  have hne : name ≠ [] := by
    rintro rfl
    rw [hrep.unnamed] at hcontent
    cases hcontent
  have hfile := (hrep.file name).trans hcontent
  refine ⟨?_, fun block hpos hblock hroom => ?_, fun dst hdst => ?_⟩
  · refine Script.wp_mono (hiveGetFileLength_healthy hvalid htoken hne hname hfile)
      (fun _ _ h => h) ?_
    exact fun _ _ _ h => ⟨h.2.2, h.2.1⟩
  · refine Script.wp_mono (hiveGetFileToBuffer_healthy hvalid htoken hne hname hfile block hpos
      hblock hroom) (fun _ _ h => h) ?_
    exact fun _ _ _ h => ⟨h.2.2, h.2.1⟩
  · exact Script.wp_mono (hiveGetFile_healthy hvalid htoken hne hname hfile
      (hrep.bounded name content hcontent) hdst) (fun _ _ h => h) fun _ _ _ h => h.2

/-- A file put empty, and then replaced by one byte. -/
def putHistory : List FileEvent :=
  [⟨.putBuffer [] (ascii "f"), 0⟩, ⟨.putBuffer (ascii "x") (ascii "f"), 0⟩]

def emptyFile : World := emptyWorld.setFile (ascii "/Files/f") (some [])
def byteFile : World := emptyFile.setFile (ascii "/Files/f") (some (ascii "x"))

theorem gets_of_run_putHistory : ∃ store,
    Run FileStore.Step ⟨fun _ => none, emptyWorld.disk⟩ putHistory store ∧
      ∀ name content, store.contents name = some content → NameFits name →
        Gets Drive.loopback freshToken byteFile name content := by
  have hput : (hivePutFileFromBuffer (some oneDriveMethods) (some []) ([] : Bytes).length
      (some (ascii "f")) freshToken).runIn Drive.serve emptyWorld =
        some (.ok (0, freshToken), emptyFile) := rfl
  have hreplace : (hivePutFileFromBuffer (some oneDriveMethods) (some (ascii "x"))
      (ascii "x").length (some (ascii "f")) freshToken).runIn Drive.serve emptyFile =
        some (.ok (0, freshToken), byteFile) := rfl
  have hfits : ∀ e ∈ putHistory, e.action.Fits := by
    have hname : NameFits (ascii "f") := by
      unfold NameFits
      decide
    simp [putHistory, FileAction.Fits, hname]
  have hfirst : Drive.loopback.FileStep freshToken emptyWorld ⟨.putBuffer [] (ascii "f"), 0⟩
      freshToken emptyFile := .putBuffer _ _ (Program.exec_of_runIn Drive.serve_sound hput)
  have hsecond : Drive.loopback.FileStep freshToken emptyFile
      ⟨.putBuffer (ascii "x") (ascii "f"), 0⟩ freshToken byteFile :=
    .putBuffer _ _ (Program.exec_of_runIn Drive.serve_sound hreplace)
  have hrun : Run (fun c e c' => Drive.loopback.FileStep c.1 c.2 e c'.1 c'.2)
      (freshToken, emptyWorld) putHistory (freshToken, byteFile) :=
    .cons (b := (freshToken, emptyFile)) hfirst (.cons hsecond (.nil _))
  exact gets_of_run loopback_tokenValid rfl (fun _ => rfl) hfits hrun

end HiveSDK
