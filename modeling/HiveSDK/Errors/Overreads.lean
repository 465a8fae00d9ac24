import HiveSDK.Errors.Lengths

/-!
# Reading past the end of a download

`hive_get_file` and `hive_ipfs_get_file` ask for a length, allocate a block of it, have the file
stored in the block and write as many bytes of it as the download returns. An error that is
returned as a length is more than two gigabytes, so that the write reads whatever memory lies behind
the block and puts it into the file of the user. This happens in the runs that `Overreads`
describes. Over IPFS the block is left in no others (`hiveIpfsGetFile_overruns_iff`); over OneDrive
the download may also write past it, when more is sent than has been announced
(`hiveGetFile_overruns_iff`).

Which of the two lengths is an error does not matter: a name that is too long makes the first call
return the same error as the second, and the block is large enough for it.
-/

namespace HiveSDK

open Interaction C

/-- A run on `tr` that reads past the end of its block: there is a positive length to allocate, the
file at `path` is created, and what is left of the trace is a download that returns, with an error
above that length. -/
structure Overreads {C α : Type} (length : M C ℤ) (toBuffer : Bytes → ℕ → M C α)
    (mislabelled : Thread C → ℕ → List CallEvent → ℤ → Prop) (path : Bytes) (s : Thread C)
    (tr : List CallEvent) : Prop where
  run : ∃ fsize s₁ rest r s₂ e,
    Program.Exec playback (length s) tr (.ok (fsize, s₁))
      (⟨.openFile path .writeExclusive, .ok ()⟩ :: ⟨.malloc fsize.toNat, true⟩ :: rest) ∧
    0 < fsize ∧
    Program.Exec playback (toBuffer (List.replicate fsize.toNat 0) fsize.toNat s₁) rest
      (.ok (r, s₂)) [] ∧
    mislabelled s₁ fsize.toNat rest e ∧ fsize < e

section Overreads

variable {C α : Type} {length : M C ℤ} {toBuffer : Bytes → ℕ → M C α}
  {mislabelled : Thread C → ℕ → List CallEvent → ℤ → Prop} {path : Bytes} {s : Thread C}
  {tr rest : List CallEvent} {fsize : ℤ}

/-- The end of such a run: a download that returns, with an error above the length. -/
def EndsAbove (toBuffer : Bytes → ℕ → M C α)
    (mislabelled : Thread C → ℕ → List CallEvent → ℤ → Prop) (fsize : ℤ) (s : Thread C)
    (rest : List CallEvent) : Prop :=
  ∃ r s' e, Program.Exec playback (toBuffer (List.replicate fsize.toNat 0) fsize.toNat s) rest
      (.ok (r, s')) [] ∧
    mislabelled s fsize.toNat rest e ∧ fsize < e

/-- There is a length to allocate, the file at `path` is created, and there is a block for it; what
is left of the trace is `rest`. -/
def Opens (path : Bytes) (fsize : ℤ) (tr rest : List CallEvent) : Prop :=
  0 < fsize ∧
    tr = ⟨.openFile path .writeExclusive, .ok ()⟩ :: ⟨.malloc fsize.toNat, true⟩ :: rest

/-- Once the length query has returned, what follows decides. -/
private theorem overreads_iff {s₁ : Thread C} {tr₁ : List CallEvent}
    (hlength : Program.Exec playback (length s) tr (.ok (fsize, s₁)) tr₁) :
    Overreads length toBuffer mislabelled path s tr ↔
      ∃ rest, Opens path fsize tr₁ rest ∧ EndsAbove toBuffer mislabelled fsize s₁ rest := by
  constructor
  · rintro ⟨fsize', s₁', rest, r, s₂, e, hlength', hpos, hbuffer, herror, hlt⟩
    obtain ⟨heq, rfl⟩ := hlength.playback_unique hlength'
    cases heq
    exact ⟨rest, ⟨hpos, rfl⟩, r, s₂, e, hbuffer, herror, hlt⟩
  · rintro ⟨rest, ⟨hpos, rfl⟩, r, s₂, e, hbuffer, herror, hlt⟩
    exact ⟨fsize, s₁, rest, r, s₂, e, hlength, hpos, hbuffer, herror, hlt⟩

/-- A length that was never obtained leads to no read of the block. -/
private theorem not_overreads_of_fault {f : Fault} {tr₁ : List CallEvent}
    (hlength : Program.Exec playback (length s) tr (.error f) tr₁) :
    ¬Overreads length toBuffer mislabelled path s tr := by
  rintro ⟨fsize, s₁, rest, r, s₂, e, hlength', -⟩
  cases (hlength.playback_unique hlength').1

/-- Once the download has returned, it does. -/
private theorem endsAbove_iff_of_returned {r : α} {s' : Thread C} {tr' : List CallEvent}
    (hbuffer : Program.Exec playback (toBuffer (List.replicate fsize.toNat 0) fsize.toNat s) rest
      (.ok (r, s')) tr') : EndsAbove toBuffer mislabelled fsize s rest ↔
        tr' = [] ∧ ∃ e, mislabelled s fsize.toNat rest e ∧ fsize < e := by
  constructor
  · rintro ⟨r', s₂, e, hbuffer', herror, hlt⟩
    obtain ⟨-, rfl⟩ := hbuffer.playback_unique hbuffer'
    exact ⟨rfl, e, herror, hlt⟩
  · rintro ⟨rfl, e, herror, hlt⟩
    exact ⟨r, s', e, hbuffer, herror, hlt⟩

/-- A download that crashes returns no length. -/
private theorem not_endsAbove_of_fault {f : Fault} {tr' : List CallEvent}
    (hbuffer : Program.Exec playback (toBuffer (List.replicate fsize.toNat 0) fsize.toNat s) rest
      (.error f) tr') : ¬EndsAbove toBuffer mislabelled fsize s rest := by
  rintro ⟨r', s₂, e, hbuffer', -⟩
  cases (hbuffer.playback_unique hbuffer').1

/-- A new file, given its download: `Leaves` says on what is left of a trace the block is left, by
the download or, when it returns more than the block holds, by the write. Then it is left on these
and on no others. -/
theorem createFile_overruns {toBuffer : Bytes → ℕ → M C (ℤ × Bytes)} {undo : M C ℤ}
    {Leaves : List CallEvent → Prop}
    (hbuffer : 0 < fsize → ∀ rest, Script.wp playback
      (fun e tr' => tr' = [] → (e = .bufferOverrun ↔ Leaves rest))
      (toBuffer (List.replicate fsize.toNat 0) fsize.toNat)
      (fun r _ tr' => (tr' = [] → r.2.length = fsize.toNat ∧ (Leaves rest ↔ fsize < r.1)) ∧
        (tr' ≠ [] → downloads tr' = [] → ¬Leaves rest)) s rest)
    (hundo : ∀ s tr, Script.wp playback noFault undo
      (fun _ _ tr' => tr' = [] → downloads tr = []) s tr) :
    Script.wp playback
      (fun e tr' => tr' = [] →
        (e = .bufferOverrun ↔ ∃ rest, Opens path fsize tr rest ∧ Leaves rest))
      (createFile path fsize toBuffer undo)
      (fun _ _ tr' => tr' = [] → ¬∃ rest, Opens path fsize tr rest ∧ Leaves rest) s tr := by
  unfold createFile
  simp only [Script.wp_ite, Script.wp_pure, Script.wp_bind, Script.wp_ask]
  refine ⟨fun hneg _ h => ?_, fun hnonneg => ?_⟩
  · obtain ⟨_, ⟨hpos, -⟩, -⟩ := h
    omega
  rintro opened tr₁ rfl
  cases opened with
  | error e =>
    rw [wp_failWith]
    rintro - ⟨_, ⟨-, heq⟩, -⟩
    cases heq
  | ok _ =>
  simp only [Script.wp_ite, Script.wp_pure, Script.wp_bind, Script.wp_ask, wp_failWith]
  refine ⟨fun hzero _ h => ?_, fun hzero => ?_⟩
  · obtain ⟨_, ⟨hpos, -⟩, -⟩ := h
    omega
  rintro made tr₂ rfl
  refine ⟨fun hfailed _ h => ?_, fun hmade => ?_⟩
  · obtain ⟨_, ⟨-, heq⟩, -⟩ := h
    cases heq
    cases hfailed
  -- the block is there; from now on the rest of the trace is the one that counts
  obtain rfl : made = true := by simpa using hmade
  have hpos : 0 < fsize := by omega
  have hleaves : (∃ rest, Opens path fsize (⟨.openFile path .writeExclusive, .ok ()⟩ ::
      ⟨.malloc fsize.toNat, true⟩ :: tr₂) rest ∧ Leaves rest) ↔ Leaves tr₂ := by
    constructor
    · rintro ⟨rest, ⟨-, heq⟩, h⟩
      cases heq
      exact h
    · exact fun h => ⟨tr₂, ⟨hpos, rfl⟩, h⟩
  rw [hleaves]
  refine Script.wp_mono (hbuffer hpos tr₂) (fun _ _ h => h) ?_
  rintro ⟨v, block⟩ s₂ tr₃ ⟨hreturned, hlater⟩
  dsimp only at hreturned
  simp only [Script.wp_ite, writeBlock, Script.wp_fault]
  -- the download failed; the write reads too much; the write is made
  refine ⟨fun hneg hnil h => ?_, fun _ => ⟨fun hshort hnil => ?_, fun _ => ?_⟩⟩
  · have hlt := (hreturned hnil).2.mp h
    omega
  · obtain ⟨hlen, hiff⟩ := hreturned hnil
    exact iff_of_true trivial (hiff.mpr (by omega))
  · -- with a write to come the download has not taken the rest of the trace
    rw [Script.wp_ask]
    rintro written tr₄ rfl
    have hundone : Script.wp playback (fun e tr' => tr' = [] → (e = .bufferOverrun ↔ Leaves tr₂))
        undo (fun _ _ tr' => tr' = [] → ¬Leaves tr₂) s₂ tr₄ :=
      Script.wp_mono (hundo s₂ tr₄) (fun _ _ h => h.elim) fun _ _ _ h hnil =>
        hlater (List.cons_ne_nil _ _) (h hnil)
    cases written with
    | error e => exact hundone
    | ok nwr =>
      simp only [Script.wp_ite, Script.wp_pure]
      refine ⟨fun _ => hundone, fun _ hnil => hlater (List.cons_ne_nil _ _) ?_⟩
      rw [hnil]
      rfl

end Overreads

/-! ### Over IPFS -/

section IPFS

variable {s : Thread IPFSConnect} {tr : List CallEvent}

/-- A query of the length copies nothing and so leaves no block. -/
private theorem hiveIpfsGetFileLength_faults (cid : Option Bytes) (past : List CallEvent) :
    Script.wp record (fun e _ => e ≠ .bufferOverrun)
      (hiveIpfsGetFileLength (some ipfsMethods) cid) (fun _ _ _ => True) s past := by
  unfold hiveIpfsGetFileLength
  cases nonempty? cid with
  | none => trivial
  | some c =>
    refine Script.wp_bind.mpr (Script.wp_mono IPFS.getFileLength_listed ?_ ?_)
    · intro e _ he
      rw [he]
      decide
    · intro exit s' past' _
      rw [wp_reportSize]
      exact ⟨fun _ => trivial, fun _ => trivial⟩

/-- The download itself stays in its block. -/
theorem IPFS.not_overrun {cid : Bytes} {n : ℕ}
    {o : Except Fault ((Exit × Bytes) × Thread IPFSConnect)}
    (hex : Program.Exec playback (IPFS.getFileToBuffer cid (List.replicate n 0) n s) tr o []) :
    o ≠ .error .bufferOverrun := by
  have hpadded : Program.Exec playback (IPFS.getFileToBuffer cid (List.replicate n 0 ++ [])
      (List.replicate n (0 : UInt8)).length s) tr o [] := by
    rwa [List.append_nil, List.length_replicate]
  exact (IPFS.getFileToBuffer_exact hpadded).1

/-- A download that returns does so with a value above the length of its block where that value is
an error. -/
theorem IPFS.getFileToBuffer_above {cid block : Bytes} {n : ℕ} {exit : Exit}
    {s' : Thread IPFSConnect}
    (hex : Program.Exec playback (IPFS.getFileToBuffer cid (List.replicate n 0) n s) tr
      (.ok ((exit, block), s')) []) :
    block.length = n ∧ ((∃ e, IPFS.BufferError s cid n tr e ∧ n < e) ↔ n < exit.ssize) := by
  have hlen : block.length = n := by
    have hpadded : Program.Exec playback (IPFS.getFileToBuffer cid (List.replicate n 0 ++ [])
        (List.replicate n (0 : UInt8)).length s) tr (.ok ((exit, block), s')) [] := by
      rwa [List.append_nil, List.length_replicate]
    obtain ⟨buffer, hbuffer, rfl, -⟩ := (IPFS.getFileToBuffer_exact hpadded).2 _ _ _ rfl
    rw [List.append_nil, hbuffer, List.length_replicate]
  refine ⟨hlen, ?_⟩
  have hends : LengthEnds (IPFS.FetchedInto cid block tr) (IPFS.BufferError s cid n tr)
      exit.ssize :=
    (IPFS.getFileToBuffer_ends (List.replicate n 0) n).of_playback hex
  cases hends with
  | failed hneg hno =>
    refine iff_of_false ?_ (by omega)
    rintro ⟨e, he, -⟩
    exact hno e he
  | obtained hnonneg hgot hno =>
    refine iff_of_false ?_ ?_
    · rintro ⟨e, he, -⟩
      exact hno e he
    · -- as many bytes have been stored in the block
      rcases hgot with ⟨hzero, -⟩ | ⟨data, -, hdata, htake⟩
      · omega
      · have hfits := congrArg List.length htake
        rw [List.length_take] at hfits
        omega
  | mislabelled hlarge hself =>
    constructor
    · rintro ⟨e, he, hlt⟩
      rwa [← (hself e).mp he]
    · intro hlt
      exact ⟨_, (hself _).mpr rfl, hlt⟩

/-- The runs of `hive_ipfs_get_file` that read past the end of the block. -/
def IPFS.Overreads (cid path : Bytes) : Thread IPFSConnect → List CallEvent → Prop :=
  HiveSDK.Overreads (hiveIpfsGetFileLength (some ipfsMethods) (some cid))
    (IPFS.getFileToBuffer cid) (IPFS.BufferError · cid) path

/-- Where the download leaves the trace, the block is not read past its end. -/
theorem IPFS.ipfsToBuffer_overruns (cid : Bytes) {fsize : ℤ} (hpos : 0 < fsize)
    (rest : List CallEvent) :
    Script.wp playback
      (fun e tr' => tr' = [] → (e = .bufferOverrun ↔
        EndsAbove (IPFS.getFileToBuffer cid) (IPFS.BufferError · cid) fsize s rest))
      (ipfsToBuffer ipfsMethods cid (List.replicate fsize.toNat 0) fsize.toNat)
      (fun r _ tr' => (tr' = [] → r.2.length = fsize.toNat ∧
          (EndsAbove (IPFS.getFileToBuffer cid) (IPFS.BufferError · cid) fsize s rest ↔
            fsize < r.1)) ∧
        (tr' ≠ [] → downloads tr' = [] →
          ¬EndsAbove (IPFS.getFileToBuffer cid) (IPFS.BufferError · cid) fsize s rest))
      s rest := by
  have hsize : (fsize.toNat : ℤ) = fsize := Int.toNat_of_nonneg hpos.le
  refine Script.wp_bind.mpr (Script.wp_mono (Script.wp_with_exec Script.wp_true) ?_ ?_)
  · rintro f tr' ⟨-, hbuffer⟩ rfl
    refine iff_of_false ?_ (not_endsAbove_of_fault hbuffer)
    rintro rfl
    exact IPFS.not_overrun hbuffer rfl
  rintro ⟨exit, block⟩ s' tr' ⟨-, hbuffer⟩
  have hreturned : EndsAbove (IPFS.getFileToBuffer cid) (IPFS.BufferError · cid) fsize s rest ↔ _ :=
    endsAbove_iff_of_returned hbuffer
  have hlater (hne : tr' ≠ []) :
      ¬EndsAbove (IPFS.getFileToBuffer cid) (IPFS.BufferError · cid) fsize s rest :=
    fun h => hne (hreturned.mp h).1
  have habove (hnil : tr' = []) : block.length = fsize.toNat ∧
      (EndsAbove (IPFS.getFileToBuffer cid) (IPFS.BufferError · cid) fsize s rest ↔
        fsize < exit.ssize) := by
    subst hnil
    obtain ⟨hlen, hlt⟩ := IPFS.getFileToBuffer_above hbuffer
    rw [hsize] at hlt
    exact ⟨hlen, hreturned.trans ((and_iff_right rfl).trans hlt)⟩
  simp only [Script.wp_bind, wp_reportSize, Script.wp_pure]
  refine ⟨fun hneg => ⟨fun hnil => ?_, fun hne _ => hlater hne⟩,
    fun _ => ⟨habove, fun hne _ => hlater hne⟩⟩
  obtain ⟨hlen, hiff⟩ := habove hnil
  exact ⟨hlen, hiff.trans (iff_of_false (by omega) (by omega))⟩

/-- Over IPFS only the write can leave the block, and does on these runs. -/
theorem hiveIpfsGetFile_overruns (cid dst : Option Bytes) :
    Script.wp playback
      (fun e tr' => tr' = [] → (e = .bufferOverrun ↔
        ∃ c ∈ nonempty? cid, ∃ path ∈ nonempty? dst, IPFS.Overreads c path s tr))
      (hiveIpfsGetFile (some ipfsMethods) cid dst)
      (fun _ _ tr' => tr' = [] →
        ¬∃ c ∈ nonempty? cid, ∃ path ∈ nonempty? dst, IPFS.Overreads c path s tr) s tr := by
  unfold hiveIpfsGetFile
  cases nonempty? cid with
  | none => exact fun _ => by simp
  | some c =>
    cases nonempty? dst with
    | none => exact fun _ => by simp
    | some path =>
      simp only [Option.mem_def, Option.some.injEq, exists_eq_left', IPFS.Overreads]
      refine Script.wp_bind.mpr (Script.wp_mono (Script.wp_with_exec Script.wp_true) ?_ ?_)
      · rintro f tr' ⟨-, hlength⟩ rfl
        have hfault := (hiveIpfsGetFileLength_faults (some c) []).of_playback hlength
        exact iff_of_false hfault (not_overreads_of_fault hlength)
      rintro fsize s₁ tr₁ ⟨-, hlength⟩
      rw [overreads_iff hlength]
      refine createFile_overruns (fun hpos rest => IPFS.ipfsToBuffer_overruns c hpos rest) ?_
      rintro s tr e _ rfl r _ rfl rfl
      rfl

/-- `hive_ipfs_get_file` reads past the end of the block in these runs, and in no others. -/
theorem hiveIpfsGetFile_overruns_iff {cid dst : Option Bytes}
    {o : Except Fault (ℤ × Thread IPFSConnect)}
    (hex : Program.Exec playback (hiveIpfsGetFile (some ipfsMethods) cid dst s) tr o []) :
    o = .error .bufferOverrun ↔
      ∃ c ∈ nonempty? cid, ∃ path ∈ nonempty? dst, IPFS.Overreads c path s tr := by
  have hends := Script.wp_iff_forall_exec.mp (hiveIpfsGetFile_overruns cid dst) o [] hex
  cases o with
  | error e => exact (Iff.of_eq (by rw [Except.error.injEq])).trans (hends rfl)
  | ok p => exact iff_of_false nofun (hends rfl)

end IPFS

/-! ### Over OneDrive -/

section OneDrive

open OneDrive

variable {s : Thread OneDriveConnect} {tr : List CallEvent}

/-- What a download that returns has left: nothing has been stored behind the block, and the value
is not above the length of the buffer, unless it is an error. -/
structure OneDrive.Stays (block : Bytes) (buflen : ℕ) (mislabelled : List CallEvent → ℤ → Prop)
    (tr : List CallEvent) (v : ℤ) (block' : Bytes) : Prop where
  room : ∀ reply ∈ downloads tr, reply.received.length ≤ block.length
  length : block'.length = block.length
  below : (∀ e, ¬mislabelled tr e) → ¬BufferTooSmall buflen v

/-- An error is not a length that is too large. -/
theorem OneDrive.not_tooSmall_of_neg {buflen : ℕ} {v : ℤ} (hneg : v < 0) :
    ¬BufferTooSmall buflen v := by
  rintro ⟨hpos, hlt⟩
  omega

/-- The download stays in its block unless more is sent than the block holds. -/
theorem OneDrive.getFileToBufferAt_stays (path block : Bytes) (buflen : ℕ) :
    Script.wp playback
      (fun e tr' => tr' = [] → (e = .bufferOverrun ↔
        ∃ reply ∈ downloads tr, block.length < reply.received.length))
      (getFileToBufferAt path block buflen)
      (fun r _ tr' => tr' = [] → Stays block buflen (BufferErrorAt buflen) tr r.1.ssize r.2)
      s tr := by
  unfold getFileToBufferAt
  simp only [Script.wp_bind, Script.wp_ite, Script.wp_pure, Script.wp_ask]
  refine Script.wp_mono oauthTokenCheckExpire_within.wp_consumed_true ?_ ?_
  · rintro e _ ⟨he, pre, rfl, hpre⟩ rfl
    refine iff_of_false ?_ ?_
    · rintro rfl
      exact he
    · simp [downloads_token hpre]
  -- requests for a token download nothing
  rintro rc s₁ tr₁ ⟨pre, rfl, hpre⟩
  refine ⟨?_, fun _ => ?_⟩
  · rintro hneg rfl
    exact ⟨by simp [downloads_token hpre], rfl, fun _ => not_tooSmall_of_neg hneg⟩
  rintro created tr₂ rfl
  refine ⟨?_, fun hcreated => ?_⟩
  · rintro hfailed rfl
    obtain rfl : created = false := by simpa using hfailed
    refine ⟨by simp [downloads_token hpre], rfl, fun hno => ?_⟩
    exact absurd (.inl ⟨List.getLast?_concat, rfl⟩) (hno _)
  obtain rfl : created = true := by simpa using hcreated
  refine Script.wp_mono (getFileInfo_playback path sizeAndUrlQuery s₁ tr₂) ?_ ?_
  · rintro e _ ⟨hfault, rfl | ⟨token, path, reply, rfl, -⟩⟩ rfl
    · exact iff_of_false hfault (by simp [downloads_token hpre])
    · exact iff_of_false hfault (by simp [downloads_token hpre])
  -- the file's information: an error, or a size and a url
  rintro (rc | json) s₂ tr₃ hinfo
  · rintro rfl
    obtain ⟨hneg, rfl | ⟨token, path, reply, rfl, -⟩⟩ := hinfo
    · exact ⟨by simp [downloads_token hpre], rfl, fun _ => not_tooSmall_of_neg hneg⟩
    · exact ⟨by simp [downloads_token hpre], rfl, fun _ => not_tooSmall_of_neg hneg⟩
  obtain ⟨token, info, rfl, hjson⟩ := hinfo
  have hvalid := (HttpReply.fileInfo_eq_some.mp hjson).2.2.2
  obtain ⟨n, hn⟩ := announcedSize_of_fileInfoValid strstr_sizeAndUrlQuery_size hvalid
  obtain ⟨url, hurl⟩ := downloadUrl_of_fileInfoValid strstr_sizeAndUrlQuery_url hvalid
  simp only [hn, hurl, Script.wp_ite, Script.wp_pure, Script.wp_bind]
  refine ⟨?_, fun hfits => ⟨?_, fun _ => ?_⟩⟩
  · rintro hsmall rfl
    refine ⟨by simp [downloads_token hpre], rfl, fun hno => ?_⟩
    refine absurd (.inr ⟨⟨token, path, info, json, n, ?_, hjson, hn, hsmall⟩, rfl⟩) (hno _)
    rw [List.getLast?_append]
    rfl
  · rintro hzero rfl
    exact ⟨by simp [downloads_token hpre], rfl, fun _ => hzero ▸ hfits⟩
  · -- the only request that writes into the block
    refine Script.wp_mono (downloadFile_playback url block s₂ tr₃) ?_ ?_
    · rintro e _ ⟨rfl, reply, rfl, hlong⟩ rfl
      exact iff_of_true rfl ⟨reply, by simp [downloads_token hpre], hlong⟩
    · rintro ⟨rc, block'⟩ s₃ tr₄ ⟨reply, rfl, hroom, rfl, -⟩
      have hlen : (reply.received ++ block.drop reply.received.length).length = block.length := by
        rw [List.length_append, List.length_drop]
        omega
      constructor
      · rintro hneg rfl
        exact ⟨by simpa [downloads_token hpre] using hroom, hlen,
          fun _ => not_tooSmall_of_neg hneg⟩
      · rintro - rfl
        exact ⟨by simpa [downloads_token hpre] using hroom, hlen, fun _ => hfits⟩

private theorem nonempty?_of_mem {name : Bytes} {x : Option Bytes} (h : name ∈ nonempty? x) :
    nonempty? (some name) = some name := by
  unfold nonempty? at h
  split at h
  · cases h
    rfl
  · cases h

/-- A download by name stays in its block under the same condition. -/
theorem OneDrive.getFileToBuffer_stays (name block : Bytes) (buflen : ℕ) :
    Script.wp playback
      (fun e tr' => tr' = [] → (e = .bufferOverrun ↔
        ∃ reply ∈ downloads tr, block.length < reply.received.length))
      (OneDrive.getFileToBuffer name block buflen)
      (fun r _ tr' => tr' = [] → Stays block buflen (BufferError name buflen) tr r.1.ssize r.2)
      s tr := by
  unfold OneDrive.getFileToBuffer
  simp only [Script.wp_ite, Bool.not_eq_true', Bool.not_eq_false]
  constructor
  · rintro hlong rfl
    exact ⟨by simp, rfl, fun hno => absurd (.inl ⟨hlong, rfl⟩) (hno _)⟩
  · intro _
    refine Script.wp_mono (getFileToBufferAt_stays _ _ _) (fun _ _ h => h) ?_
    intro r _ tr' hstays hnil
    have h := hstays hnil
    exact ⟨h.room, h.length, fun hno => h.below fun e he => hno e (.inr he)⟩

/-- The same for the public function. -/
private theorem hiveGetFileToBuffer_stays {name : Bytes} (hname : nonempty? (some name) = some name)
    (block : Bytes) {buflen : ℕ} (hlen : buflen ≠ 0) :
    Script.wp playback
      (fun e tr' => tr' = [] → (e = .bufferOverrun ↔
        ∃ reply ∈ downloads tr, block.length < reply.received.length))
      (hiveGetFileToBuffer (some oneDriveMethods) (some name) (some block) buflen)
      (fun r _ tr' => tr' = [] → Stays block buflen (BufferError name buflen) tr r.1 r.2)
      s tr := by
  unfold hiveGetFileToBuffer
  rw [hname]
  dsimp only
  rw [if_neg hlen]
  refine Script.wp_bind.mpr (Script.wp_mono (OneDrive.getFileToBuffer_stays name block buflen)
    (fun _ _ h => h) ?_)
  rintro ⟨exit, block'⟩ s' tr' hstays
  simp only [Script.wp_bind, wp_reportSize, Script.wp_pure]
  constructor
  · intro _ hnil
    have h := hstays hnil
    exact ⟨h.room, h.length, fun _ => not_tooSmall_of_neg (by decide)⟩
  · intro _ hnil
    exact hstays hnil

/-- A download that returns does so with a value above the length of its block where that value is
an error. -/
private theorem hiveGetFileToBuffer_above {name block : Bytes} {n : ℕ} {v : ℤ}
    {s' : Thread OneDriveConnect} (hname : nonempty? (some name) = some name) (hpos : 0 < n)
    (hlt : n < 2 ^ 63)
    (hex : Program.Exec playback (hiveGetFileToBuffer (some oneDriveMethods) (some name)
      (some (List.replicate n 0)) n s) tr (.ok ((v, block), s')) []) :
    (∀ reply ∈ downloads tr, reply.received.length ≤ n) ∧ block.length = n ∧
      ((∃ e, BufferError name n tr e ∧ n < e) ↔ n < v) := by
  have hstays : Stays (List.replicate n 0) n (BufferError name n) tr v block :=
    Script.wp.of_exec (hiveGetFileToBuffer_stays hname _ hpos.ne') hex rfl
  obtain ⟨hroom, hlen, hbelow⟩ := hstays
  rw [List.length_replicate] at hroom hlen
  refine ⟨hroom, hlen, ?_⟩
  have hreported : LengthReported (OneDrive.Fetched tr) (fun e => ∃ c ∈ nonempty? (some name),
      some (List.replicate n (0 : UInt8)) ≠ none ∧ n ≠ 0 ∧ BufferError c n tr e) v :=
    Script.wp.of_exec (hiveGetFileToBuffer_reported _ _ n s) hex rfl
  have htold (e : ℤ) (he : BufferError name n tr e) : v = e :=
    (hreported.told e ⟨name, hname, nofun, hpos.ne', he⟩).1
  constructor
  · rintro ⟨e, he, hlarge⟩
    rwa [htold e he]
  · intro hlarge
    by_contra hno
    refine hbelow (fun e he => hno ⟨e, he, htold e he ▸ hlarge⟩) ?_
    have hself : toLong n = n := toLong_eq_self (by omega) (by omega)
    rw [BufferTooSmall, hself]
    exact ⟨by omega, hlarge⟩

/-- A query of the length copies nothing and so leaves no block. -/
theorem OneDrive.getFileLength_faults (name : Bytes) :
    Script.wp playback (fun e _ => e ≠ .bufferOverrun) (OneDrive.getFileLength name)
      (fun _ _ _ => True) s tr := by
  unfold OneDrive.getFileLength getFileLengthAt
  simp only [Script.wp_bind, Script.wp_ite, Script.wp_pure, Script.wp_ask]
  refine ⟨fun _ => trivial, fun _ => ?_⟩
  refine Script.wp_mono oauthTokenCheckExpire_within.wp_consumed_true ?_ ?_
  · rintro e _ ⟨he, -⟩ rfl
    exact he
  intro rc s₁ tr₁ _
  refine ⟨fun _ => trivial, fun _ created tr₂ _ => ⟨fun _ => trivial, fun _ => ?_⟩⟩
  refine Script.wp_mono (getFileInfo_playback _ sizeQuery s₁ tr₂) (fun _ _ h => h.1) ?_
  rintro (rc | json) s₂ tr₃ hinfo
  · trivial
  · obtain ⟨token, info, rfl, hjson⟩ := hinfo
    obtain ⟨n, hn⟩ := announcedSize_of_fileInfoValid strstr_sizeQuery
      (HttpReply.fileInfo_eq_some.mp hjson).2.2.2
    dsimp only
    rw [hn]
    trivial

/-- Nor does the public function. -/
private theorem hiveGetFileLength_faults (filename : Option Bytes) :
    Script.wp playback (fun e _ => e ≠ .bufferOverrun)
      (hiveGetFileLength (some oneDriveMethods) filename) (fun _ _ _ => True) s tr := by
  unfold hiveGetFileLength
  cases nonempty? filename with
  | none => trivial
  | some name =>
    refine Script.wp_bind.mpr (Script.wp_mono (OneDrive.getFileLength_faults name)
      (fun _ _ h => h) ?_)
    intro exit s' tr' _
    rw [wp_reportSize]
    exact ⟨fun _ => trivial, fun _ => trivial⟩

/-- A length that is returned is one of `ssize_t`, whatever follows in the trace. -/
private theorem hiveGetFileLength_lt {filename : Option Bytes} {v : ℤ} {s' : Thread OneDriveConnect}
    {tr' : List CallEvent}
    (hex : Program.Exec playback (hiveGetFileLength (some oneDriveMethods) filename s) tr
      (.ok (v, s')) tr') : v < 2 ^ 63 := by
  obtain ⟨own, rfl, hplay⟩ := hex.own
  have hreported := Script.wp.of_exec (hiveGetFileLength_reported filename s) hplay rfl
  by_contra hlarge
  have hno (e : ℤ) : ¬∃ name ∈ nonempty? filename, LengthError name own e := by
    intro he
    obtain ⟨rfl, -⟩ := hreported.told e he
    obtain ⟨_, -, ⟨-, rfl⟩ | ⟨-, rfl⟩⟩ := he
    · exact hlarge (by decide)
    · exact hlarge (by decide)
  rcases hreported.otherwise hno with rfl | ⟨-, info, -, json, -, hsize⟩
  · exact hlarge (by decide)
  · obtain ⟨d, -, rfl⟩ := Option.map_eq_some_iff.mp hsize
    exact hlarge (Double.toLong_lt d)

/-- The runs of `hive_get_file` that read past the end of the block. -/
def OneDrive.Overreads (name path : Bytes) : Thread OneDriveConnect → List CallEvent → Prop :=
  HiveSDK.Overreads (hiveGetFileLength (some oneDriveMethods) (some name))
    (fun block n => hiveGetFileToBuffer (some oneDriveMethods) (some name) (some block) n)
    (fun _ n tr e => BufferError name n tr e) path

/-- Those that write past it: more is sent than has been announced. -/
def OneDrive.Overwrites (name path : Bytes) (s : Thread OneDriveConnect) (tr : List CallEvent) :
    Prop :=
  ∃ fsize s₁ rest,
    Program.Exec playback (hiveGetFileLength (some oneDriveMethods) (some name) s) tr
      (.ok (fsize, s₁))
      (⟨.openFile path .writeExclusive, .ok ()⟩ :: ⟨.malloc fsize.toNat, true⟩ :: rest) ∧
    0 < fsize ∧ ∃ reply ∈ downloads rest, fsize.toNat < reply.received.length

/-- Once the length is known, the write past the block is a matter of the rest of the trace. -/
theorem OneDrive.overwrites_iff {name path : Bytes} {fsize : ℤ} {s₁ : Thread OneDriveConnect}
    {tr₁ : List CallEvent} (hlength : Program.Exec playback
      (hiveGetFileLength (some oneDriveMethods) (some name) s) tr (.ok (fsize, s₁)) tr₁) :
    Overwrites name path s tr ↔ ∃ rest, Opens path fsize tr₁ rest ∧
      ∃ reply ∈ downloads rest, fsize.toNat < reply.received.length := by
  constructor
  · rintro ⟨fsize', s₁', rest, hlength', hpos, hlong⟩
    obtain ⟨heq, rfl⟩ := hlength.playback_unique hlength'
    cases heq
    exact ⟨rest, ⟨hpos, rfl⟩, hlong⟩
  · rintro ⟨rest, ⟨hpos, rfl⟩, hlong⟩
    exact ⟨fsize, s₁, rest, hlength, hpos, hlong⟩

/-- What is left of a trace on which the download leads out of the block. -/
def OneDrive.Leaves (name : Bytes) (fsize : ℤ) (s : Thread OneDriveConnect)
    (rest : List CallEvent) : Prop :=
  EndsAbove (fun block n => hiveGetFileToBuffer (some oneDriveMethods) (some name) (some block) n)
      (fun _ n tr e => BufferError name n tr e) fsize s rest ∨
    ∃ reply ∈ downloads rest, fsize.toNat < reply.received.length

/-- What `createFile` asks of its download holds of that of `hive_get_file`. -/
theorem OneDrive.hiveGetFileToBuffer_overruns {name : Bytes}
    (hname : nonempty? (some name) = some name) {fsize : ℤ} (hpos : 0 < fsize)
    (hlt : fsize < 2 ^ 63) (rest : List CallEvent) :
    Script.wp playback
      (fun e tr' => tr' = [] → (e = .bufferOverrun ↔ Leaves name fsize s rest))
      (hiveGetFileToBuffer (some oneDriveMethods) (some name)
        (some (List.replicate fsize.toNat 0)) fsize.toNat)
      (fun r _ tr' => (tr' = [] → r.2.length = fsize.toNat ∧
          (Leaves name fsize s rest ↔ fsize < r.1)) ∧
        (tr' ≠ [] → downloads tr' = [] → ¬Leaves name fsize s rest)) s rest := by
  have hsize : (fsize.toNat : ℤ) = fsize := Int.toNat_of_nonneg hpos.le
  refine Script.wp_mono (Script.wp_with_exec (hiveGetFileToBuffer_stays hname
    (List.replicate fsize.toNat 0) (by omega))) ?_ ?_
  · rintro f tr' ⟨hstays, hbuffer⟩ rfl
    rw [List.length_replicate] at hstays
    rw [hstays rfl, Leaves, or_iff_right (not_endsAbove_of_fault hbuffer)]
  rintro ⟨v, block⟩ s' tr' ⟨-, hbuffer⟩
  -- the part of the trace that is the download's
  obtain ⟨own, rfl, hplay⟩ := hbuffer.own
  obtain ⟨hroom, hlen, habove⟩ := hiveGetFileToBuffer_above hname (by omega) (by omega) hplay
  rw [hsize] at habove
  have hreturned : EndsAbove (fun block n =>
      hiveGetFileToBuffer (some oneDriveMethods) (some name) (some block) n)
      (fun _ n tr e => BufferError name n tr e) fsize s (own ++ tr') ↔ _ :=
    endsAbove_iff_of_returned hbuffer
  have hleaves (htail : downloads tr' = []) : Leaves name fsize s (own ++ tr') ↔ tr' = [] ∧
      ∃ e, BufferError name fsize.toNat (own ++ tr') e ∧ fsize < e := by
    rw [Leaves, hreturned, or_iff_left]
    rw [downloads_append, htail, List.append_nil]
    rintro ⟨reply, hmem, hlong⟩
    exact absurd (hroom reply hmem) hlong.not_ge
  refine ⟨?_, fun hne htail h => hne ((hleaves htail).mp h).1⟩
  rintro rfl
  rw [hleaves rfl, and_iff_right rfl, List.append_nil]
  exact ⟨hlen, habove⟩

/-- Over OneDrive the callback and the write can leave the block, and do on these runs. -/
theorem hiveGetFile_overruns (filename dst : Option Bytes) :
    Script.wp playback
      (fun e tr' => tr' = [] → (e = .bufferOverrun ↔ ∃ name ∈ nonempty? filename,
        ∃ path ∈ nonempty? dst, OneDrive.Overreads name path s tr ∨ Overwrites name path s tr))
      (hiveGetFile (some oneDriveMethods) filename dst)
      (fun _ _ tr' => tr' = [] → ¬∃ name ∈ nonempty? filename,
        ∃ path ∈ nonempty? dst, OneDrive.Overreads name path s tr ∨ Overwrites name path s tr)
      s tr := by
  unfold hiveGetFile
  cases hfilename : nonempty? filename with
  | none => exact fun _ => by simp
  | some name =>
    have hname : nonempty? (some name) = some name := nonempty?_of_mem hfilename
    cases nonempty? dst with
    | none => exact fun _ => by simp
    | some path =>
      simp only [Option.mem_def, Option.some.injEq, exists_eq_left']
      refine Script.wp_bind.mpr (Script.wp_mono (Script.wp_with_exec
        (hiveGetFileLength_faults (some name))) ?_ ?_)
      · rintro f tr' ⟨hfault, hlength⟩ rfl
        refine iff_of_false hfault ?_
        rintro (h | ⟨_, _, _, hlength', -⟩)
        · exact not_overreads_of_fault hlength h
        · cases (hlength.playback_unique hlength').1
      rintro fsize s₁ tr₁ ⟨-, hlength⟩
      have hleaves : OneDrive.Overreads name path s tr ∨ Overwrites name path s tr ↔
          ∃ rest, Opens path fsize tr₁ rest ∧ Leaves name fsize s₁ rest := by
        rw [OneDrive.Overreads, overreads_iff hlength, OneDrive.overwrites_iff hlength, ← exists_or]
        exact exists_congr fun rest => and_or_left.symm
      rw [hleaves]
      refine createFile_overruns (fun hpos rest => OneDrive.hiveGetFileToBuffer_overruns hname hpos
        (hiveGetFileLength_lt hlength) rest) ?_
      rintro s tr removed _ rfl e _ rfl rfl
      rfl

/-- `hive_get_file` leaves the block in these runs, and in no others. -/
theorem hiveGetFile_overruns_iff {filename dst : Option Bytes}
    {o : Except Fault (ℤ × Thread OneDriveConnect)}
    (hex : Program.Exec playback (hiveGetFile (some oneDriveMethods) filename dst s) tr o []) :
    o = .error .bufferOverrun ↔ ∃ name ∈ nonempty? filename, ∃ path ∈ nonempty? dst,
      OneDrive.Overreads name path s tr ∨ Overwrites name path s tr := by
  have hends := Script.wp_iff_forall_exec.mp (hiveGetFile_overruns filename dst) o [] hex
  cases o with
  | error e => exact (Iff.of_eq (by rw [Except.error.injEq])).trans (hends rfl)
  | ok p => exact iff_of_false nofun (hends rfl)

end OneDrive

/-! ### A file that grows -/

/-- A file of `n` bytes, in the words of either service, that has two more whenever it is asked
for. -/
def growing (n : ℕ) : (i : Call) → Option (i.Reply × ℕ)
  | .gettimeofday => some (⟨1, 0⟩, n)
  | .httpClientNew _ => some (true, n)
  | .openFile _ _ => some (.ok (), n)
  | .malloc _ => some (true, n)
  | .httpClientPerform _ => some (.accepted [ascii "{}"] (some (.object [
      (sizeQuery, .number (.ofInt n)), (downloadUrlKey, .string (ascii "https://d")),
      (ascii "Objects", .object [(ascii "Qm", .object [(ascii "Size", .number (.ofInt n))])])])),
    n + 2)
  | _ => none

theorem hiveIpfsGetFile_overruns_iff_growing :
    ∃ tr, IPFS.Overreads (ascii "Qm") (ascii "f") IPFS.atNode tr := by
  have hrun : ((hiveIpfsGetFile (some ipfsMethods) (some (ascii "Qm")) (some (ascii "f"))
      IPFS.atNode).runWith growing 3).map Prod.fst = some (.error .bufferOverrun) := rfl
  obtain ⟨tr, hex⟩ := Program.exists_exec_of_runWith hrun
  obtain ⟨cid, hcid, path, hpath, hover⟩ := (hiveIpfsGetFile_overruns_iff hex).mp rfl
  obtain rfl : ascii "Qm" = cid := Option.some.inj hcid
  obtain rfl : ascii "f" = path := Option.some.inj hpath
  exact ⟨tr, hover⟩

theorem hiveGetFile_overruns_iff_growing : ∃ tr,
    OneDrive.Overreads (ascii "a") (ascii "f") OneDrive.freshToken tr ∨
      OneDrive.Overwrites (ascii "a") (ascii "f") OneDrive.freshToken tr := by
  have hrun : ((hiveGetFile (some oneDriveMethods) (some (ascii "a")) (some (ascii "f"))
      OneDrive.freshToken).runWith growing 3).map Prod.fst = some (.error .bufferOverrun) := rfl
  obtain ⟨tr, hex⟩ := Program.exists_exec_of_runWith hrun
  obtain ⟨name, hname, path, hpath, hover⟩ := (hiveGetFile_overruns_iff hex).mp rfl
  obtain rfl : ascii "a" = name := Option.some.inj hname
  obtain rfl : ascii "f" = path := Option.some.inj hpath
  exact ⟨tr, hover⟩

end HiveSDK
