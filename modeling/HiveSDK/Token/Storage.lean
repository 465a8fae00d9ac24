import HiveSDK.Interaction.Lockstep
import HiveSDK.Model.TokenStorage
import HiveSDK.Token.Spec

/-!
# The strings of a token and the blocks they are in

`TokenMemory.Holds` is the layout of the strings of a token in memory: none, one block for all
three (restored), or three blocks (decoded). Each function that moves the strings is run next to
the one that works on their values, on the same replies (`Interaction.Lockstep`): the two return
the same, and memory keeps representing the value (`TokenMemory.Represents`). So do any number of
them, one after the other (`StringOperation.all_lockstep`), and no block that is not live is
released or written until the token has been destroyed (`StringOperation.life_safe`).

The work is in `decodeAccessToken_lockstep`. A reply is refused at eight places, with none to three
temporaries to release; `Heap.Extends` says which are still live, and on each exit none is left.
-/

namespace HiveSDK

open Interaction C
open Interaction.Program (Lockstep)
open Memory (Heap Pointer)

/-- The strings of a token. -/
structure TokenStrings where
  tokenType : Bytes
  accessToken : Bytes
  refreshToken : Bytes
  deriving DecidableEq

/-- The pointers of a token to three strings, and what they point to. -/
inductive TokenFields.Layout (fields : TokenFields) (heap : Heap) : Option TokenStrings → Prop
  /-- There are no strings. -/
  | unset (htokenType : fields.tokenType = none) (haccessToken : fields.accessToken = none)
    (hrefreshToken : fields.refreshToken = none) : Layout fields heap none
  /-- The strings follow each other in one block. -/
  | oneBlock {strings : TokenStrings} {b : ℕ}
    (hblock : heap.blocks b = some ((strings.tokenType ++ [0]) ++ (strings.accessToken ++ [0]) ++
      (strings.refreshToken ++ [0])))
    (htokenType : fields.tokenType = some ⟨b, 0⟩)
    (haccessToken : fields.accessToken = some ⟨b, (strings.tokenType ++ [0]).length⟩)
    (hrefreshToken : fields.refreshToken =
      some ⟨b, ((strings.tokenType ++ [0]) ++ (strings.accessToken ++ [0])).length⟩) :
    Layout fields heap (some strings)
  /-- Each string has a block of its own. -/
  | threeBlocks {strings : TokenStrings} {b₁ b₂ b₃ : ℕ}
    (hblock₁ : heap.blocks b₁ = some (strings.tokenType ++ [0]))
    (hblock₂ : heap.blocks b₂ = some (strings.accessToken ++ [0]))
    (hblock₃ : heap.blocks b₃ = some (strings.refreshToken ++ [0]))
    (htokenType : fields.tokenType = some ⟨b₁, 0⟩)
    (haccessToken : fields.accessToken = some ⟨b₂, 0⟩)
    (hrefreshToken : fields.refreshToken = some ⟨b₃, 0⟩) :
    Layout fields heap (some strings)

/-- The token holds these strings, in one of the layouts. -/
abbrev TokenMemory.Holds (m : TokenMemory) (held : Option TokenStrings) : Prop :=
  m.fields.Layout m.heap held

/-- The pointer that is released, if there is one, points at the start of a live block. -/
theorem TokenMemory.Holds.tokenType {m : TokenMemory} {held : Option TokenStrings}
    (h : m.Holds held) : (held = none ∧ m.fields.tokenType = none) ∨
      ∃ b data, m.fields.tokenType = some ⟨b, 0⟩ ∧ m.heap.blocks b = some data := by
  cases h with
  | unset htokenType _ _ => exact .inl ⟨rfl, htokenType⟩
  | oneBlock hblock htokenType _ _ => exact .inr ⟨_, _, htokenType, hblock⟩
  | threeBlocks hblock _ _ htokenType _ _ => exact .inr ⟨_, _, htokenType, hblock⟩

/-- The layout depends on the blocks only. -/
theorem TokenFields.Layout.of_blocks {fields : TokenFields} {heap heap' : Heap}
    {held : Option TokenStrings} (h : fields.Layout heap held)
    (hblocks : heap'.blocks = heap.blocks) : fields.Layout heap' held := by
  cases h with
  | unset h₁ h₂ h₃ => exact .unset h₁ h₂ h₃
  | oneBlock hblock h₁ h₂ h₃ => exact .oneBlock (hblocks ▸ hblock) h₁ h₂ h₃
  | threeBlocks hb₁ hb₂ hb₃ h₁ h₂ h₃ =>
    exact .threeBlocks (hblocks ▸ hb₁) (hblocks ▸ hb₂) (hblocks ▸ hb₃) h₁ h₂ h₃

/-- … and on the pointers only. -/
theorem TokenFields.Layout.of_pointers {fields fields' : TokenFields} {heap : Heap}
    {held : Option TokenStrings} (h : fields.Layout heap held)
    (htokenType : fields'.tokenType = fields.tokenType)
    (haccessToken : fields'.accessToken = fields.accessToken)
    (hrefreshToken : fields'.refreshToken = fields.refreshToken) : fields'.Layout heap held := by
  cases h with
  | unset h₁ h₂ h₃ =>
    exact .unset (htokenType.trans h₁) (haccessToken.trans h₂) (hrefreshToken.trans h₃)
  | oneBlock hblock h₁ h₂ h₃ =>
    exact .oneBlock hblock (htokenType.trans h₁) (haccessToken.trans h₂) (hrefreshToken.trans h₃)
  | threeBlocks hb₁ hb₂ hb₃ h₁ h₂ h₃ =>
    exact .threeBlocks hb₁ hb₂ hb₃ (htokenType.trans h₁) (haccessToken.trans h₂)
      (hrefreshToken.trans h₃)

/-- Memory holds the strings of the token `t`, if any, and the rest of it. -/
structure TokenMemory.Represents (m : TokenMemory) (t : OAuthToken) : Prop where
  clientId : m.clientId = t.clientId
  expiresAt : m.fields.expiresAt = t.expiresAt
  strings : ∃ held, m.Holds held ∧ t.tokenType = held.map (·.tokenType) ∧
    t.accessToken = held.map (·.accessToken) ∧ t.refreshToken = held.map (·.refreshToken)

/-- The thread with another heap. -/
def Thread.withHeap (ms : Thread TokenMemory) (heap : Heap) : Thread TokenMemory :=
  { ms with conn := { ms.conn with heap := heap } }

section Lockstep

variable {β : Type} {ms : Thread TokenMemory} {s : Thread OneDriveConnect} {past : List CallEvent}
  {R : ℤ × Thread TokenMemory → ℤ × Thread OneDriveConnect → List CallEvent → Prop}
  {heap : Heap} {temps : List (ℕ × Bytes)}

/-- Work on the heap that succeeds asks nothing. -/
private theorem onHeap_eq {f : Heap → Option Heap} {heap' : Heap}
    (hf : f ms.conn.heap = some heap') :
    TokenMemory.onHeap f ms = pure ((), ms.withHeap heap') := by
  unfold TokenMemory.onHeap
  rw [Script.get_bind_eq, hf]
  rfl

/-- A temporary is released. -/
private theorem lockstep_free {t : ℕ × Bytes} {f : Unit → M TokenMemory ℤ}
    {q : Program Call Call.Reply Fault (ℤ × Thread OneDriveConnect)}
    (hext : ms.conn.heap.Extends heap (t :: temps))
    (hrest : ∀ heap', ms.conn.heap.Extends heap' temps →
      Lockstep R (f () (ms.withHeap heap')) q past) :
    Lockstep R ((TokenMemory.free ⟨t.1, 0⟩ >>= f) (ms.withHeap heap)) q past := by
  obtain ⟨heap', hfree, hext'⟩ := hext.free
  exact Script.lockstep_left (onHeap_eq hfree) (hrest heap' hext')

/-- A string is duplicated on one side, which needs memory for it on both. -/
private theorem lockstep_strdup {string : Bytes} {f : Option Pointer → M TokenMemory ℤ}
    {rest : M OneDriveConnect ℤ} (hext : ms.conn.heap.Extends heap temps)
    (hnone : ∀ past, Lockstep R (f none (ms.withHeap heap))
      ((do return toInt (hiveSysError (← errno)) : M OneDriveConnect ℤ) s) past)
    (hsome : ∀ b heap' past, ms.conn.heap.Extends heap' (temps ++ [(b, string ++ [0])]) →
      Lockstep R (f (some ⟨b, 0⟩) (ms.withHeap heap')) (rest s) past) :
    Lockstep R ((TokenMemory.strdup string >>= f) (ms.withHeap heap))
      ((do
        if !(← malloc (string.length + 1)) then
          return toInt (hiveSysError (← errno))
        rest) s) past := by
  unfold TokenMemory.strdup TokenMemory.allocate
  rw [List.length_append]
  refine .ask fun held => ?_
  cases held with
  | false => exact hnone _
  | true => exact hsome heap.next _ _ (hext.alloc _)

/-- The block of a token is released, and the temporaries stay. -/
private theorem freeTokenType_eq {held : Option TokenStrings} (hholds : ms.conn.Holds held)
    (hext : ms.conn.heap.Extends heap temps) :
    ∃ heap', TokenMemory.freeTokenType (ms.withHeap heap) =
        pure ((), { ms with conn := { ms.conn with
          heap := heap', fields := { ms.conn.fields with tokenType := none } } }) ∧
      ∀ t ∈ temps, heap'.blocks t.1 = some t.2 := by
  have clear (heap' : Heap) : (TokenMemory.modifyFields fun t => { t with tokenType := none })
      (ms.withHeap heap') = (pure ((), { ms with conn := { ms.conn with
        heap := heap', fields := { ms.conn.fields with tokenType := none } } }) :
          Program Call Call.Reply Fault _) := rfl
  have hfields : (ms.withHeap heap).conn.fields.tokenType = ms.conn.fields.tokenType := rfl
  unfold TokenMemory.freeTokenType
  rw [Script.get_bind_eq, hfields]
  rcases hholds.tokenType with ⟨-, hunset⟩ | ⟨b, data, hset, hblock⟩
  · rw [hunset]
    exact ⟨heap, clear heap, hext.live⟩
  · obtain ⟨heap', hfree, hblocks, -⟩ := Heap.free_of_blocks (hext.blocks_of_live hblock)
    rw [hset]
    refine ⟨heap', ?_, fun t ht => hext.blocks_of_free hblock hblocks ht⟩
    change (TokenMemory.free ⟨b, 0⟩ (ms.withHeap heap) >>= fun p =>
      (TokenMemory.modifyFields fun t => { t with tokenType := none }) p.2) = _
    have hgone : TokenMemory.free ⟨b, 0⟩ (ms.withHeap heap) = pure ((), ms.withHeap heap') :=
      onHeap_eq hfree
    rw [hgone]
    exact clear heap'

/-- What a reply does to a token in memory and to its value: nothing, or what it grants is stored
in three blocks, and the clock is read last. -/
inductive Decoded (json : Option Json) (ms : Thread TokenMemory) (s : Thread OneDriveConnect) :
    ℤ × Thread TokenMemory → ℤ × Thread OneDriveConnect → List CallEvent → Prop
  | refused {rc : ℤ} {heap : Heap} {past : List CallEvent} (hrc : rc < 0)
    (hblocks : heap.blocks = ms.conn.heap.blocks) :
    Decoded json ms s (rc, ms.withHeap heap) (rc, s) past
  | granted {reply : Json} {strings : TokenStrings} {expiresIn : ℤ} {now : Timeval} {heap : Heap}
    {fields : TokenFields} {past : List CallEvent} (hjson : json = some reply)
    (hgrants : reply.Grants strings.tokenType strings.accessToken strings.refreshToken expiresIn)
    (hholds : fields.Layout heap (some strings))
    (hexpires : fields.expiresAt = now.add ⟨expiresIn, 0⟩) :
    Decoded json ms s
      (0, { ms with conn := { ms.conn with heap := heap, fields := fields } })
      (0, s.withToken (s.conn.token.withTokens strings.tokenType strings.accessToken
        strings.refreshToken (now.add ⟨expiresIn, 0⟩))) (past ++ [⟨.gettimeofday, now⟩])

/-- A reply is decoded alike in memory and on values, and no block that is not live is released. -/
theorem decodeAccessToken_lockstep (json : Option Json) {held : Option TokenStrings}
    (hholds : ms.conn.Holds held) :
    Lockstep (Decoded json ms s) (TokenMemory.decodeAccessToken json ms)
      (decodeAccessToken json s) past := by
  -- the exits: an error, and before it the release of every temporary
  have refused {rc : ℤ} (hrc : rc < 0) {heap : Heap} (hext : ms.conn.heap.Extends heap [])
      (past : List CallEvent) : Lockstep (Decoded json ms s)
        ((pure rc : M TokenMemory ℤ) (ms.withHeap heap)) ((pure rc : M OneDriveConnect ℤ) s) past :=
    .ret (.refused hrc hext.blocks_eq)
  have release₁ {rc : ℤ} (hrc : rc < 0) {heap : Heap} {t₁ : ℕ × Bytes}
      (hext : ms.conn.heap.Extends heap [t₁]) (past : List CallEvent) :
      Lockstep (Decoded json ms s)
        ((do TokenMemory.free ⟨t₁.1, 0⟩; return rc : M TokenMemory ℤ) (ms.withHeap heap))
        ((pure rc : M OneDriveConnect ℤ) s) past :=
    lockstep_free hext fun _ hext => refused hrc hext past
  have release₂ {rc : ℤ} (hrc : rc < 0) {heap : Heap} {t₁ t₂ : ℕ × Bytes}
      (hext : ms.conn.heap.Extends heap [t₁, t₂]) (past : List CallEvent) :
      Lockstep (Decoded json ms s)
        ((do TokenMemory.free ⟨t₁.1, 0⟩; TokenMemory.free ⟨t₂.1, 0⟩; return rc :
          M TokenMemory ℤ) (ms.withHeap heap))
        ((pure rc : M OneDriveConnect ℤ) s) past :=
    lockstep_free hext fun _ hext => release₁ hrc hext past
  have release₃ {rc : ℤ} (hrc : rc < 0) {heap : Heap} {t₁ t₂ t₃ : ℕ × Bytes}
      (hext : ms.conn.heap.Extends heap [t₁, t₂, t₃]) (past : List CallEvent) :
      Lockstep (Decoded json ms s)
        ((do TokenMemory.free ⟨t₁.1, 0⟩; TokenMemory.free ⟨t₂.1, 0⟩; TokenMemory.free ⟨t₃.1, 0⟩
             return rc : M TokenMemory ℤ) (ms.withHeap heap))
        ((pure rc : M OneDriveConnect ℤ) s) past :=
    lockstep_free hext fun _ hext => release₂ hrc hext past
  have hbad := toInt_hiveGeneralError_neg HIVEERR_BAD_JSON_FORMAT
  have hstart : ms.conn.heap.Extends ms.conn.heap [] := .refl _
  unfold TokenMemory.decodeAccessToken decodeAccessToken
  dsimp only
  cases json with
  | none => exact refused hbad hstart past
  | some reply =>
  dsimp only
  cases htokenType : Json.nonemptyString?
      (reply.getObjectItemCaseSensitive (ascii "token_type")) with
  | none => exact refused hbad hstart past
  | some tokenType =>
  refine lockstep_strdup hstart (fun past => .ask fun e => ?_) fun b₁ heap₁ past₁ hext₁ => ?_
  · exact refused (toInt_hiveSysError_neg _) hstart _
  rw [List.nil_append] at hext₁
  dsimp only
  cases hscope : Json.nonemptyString? (reply.getObjectItemCaseSensitive (ascii "scope")) with
  | none => exact release₁ hbad hext₁ _
  | some scope =>
  dsimp only
  cases haccessToken : Json.nonemptyString?
      (reply.getObjectItemCaseSensitive (ascii "access_token")) with
  | none => exact release₁ hbad hext₁ _
  | some accessToken =>
  refine lockstep_strdup hext₁ (fun past => .ask fun e => ?_) fun b₂ heap₂ past₂ hext₂ => ?_
  · exact release₁ (toInt_hiveSysError_neg _) hext₁ _
  rw [List.singleton_append] at hext₂
  dsimp only
  cases hrefreshToken : Json.nonemptyString?
      (reply.getObjectItemCaseSensitive (ascii "refresh_token")) with
  | none => exact release₂ hbad hext₂ _
  | some refreshToken =>
  refine lockstep_strdup hext₂ (fun past => .ask fun e => ?_) fun b₃ heap₃ past₃ hext₃ => ?_
  · exact release₂ (toInt_hiveSysError_neg _) hext₂ _
  rw [List.cons_append, List.singleton_append] at hext₃
  dsimp only
  cases hexpiresIn : Json.number? (reply.getObjectItemCaseSensitive (ascii "expires_in")) with
  | none => exact release₃ hbad hext₃ _
  | some expiresIn =>
  dsimp only
  by_cases hnonneg : expiresIn.toLong < 0
  · rw [if_pos hnonneg, if_pos hnonneg]
    exact release₃ hbad hext₃ _
  rw [if_neg hnonneg, if_neg hnonneg]
  rw [Json.nonemptyString?_eq_some] at htokenType hscope haccessToken hrefreshToken
  rw [Json.number?_eq_some] at hexpiresIn
  have hgrants : reply.Grants tokenType accessToken refreshToken expiresIn.toLong :=
    ⟨htokenType.1, haccessToken.1, hrefreshToken.1, htokenType.2, ⟨scope, hscope⟩,
      haccessToken.2, hrefreshToken.2, not_lt.mp hnonneg, ⟨expiresIn, rfl, hexpiresIn⟩⟩
  -- the block of the old strings goes, the three new ones stay
  obtain ⟨heap₄, hfreed, hlive⟩ := freeTokenType_eq hholds hext₃
  have hblock₁ := hlive _ List.mem_cons_self
  have hblock₂ := hlive _ (List.mem_cons_of_mem _ List.mem_cons_self)
  have hblock₃ := hlive _ (List.mem_cons_of_mem _ (List.mem_cons_of_mem _ List.mem_cons_self))
  have hlayout (now : Timeval) : TokenFields.Layout
      ⟨some ⟨b₁, 0⟩, some ⟨b₂, 0⟩, some ⟨b₃, 0⟩, now.add ⟨expiresIn.toLong, 0⟩⟩ heap₄
      (some ⟨tokenType, accessToken, refreshToken⟩) :=
    .threeBlocks hblock₁ hblock₂ hblock₃ rfl rfl rfl
  refine Script.lockstep_left hfreed (.ask fun now => .ret ?_)
  exact .granted rfl (by exact hgrants) (hlayout now) rfl

/-- The three strings fill the block. -/
private theorem copyStrings_eq {b : ℕ} (strings : TokenStrings)
    (hblock : ms.conn.heap.blocks b = some (List.replicate (strings.tokenType.length + 1 +
      (strings.accessToken.length + 1) + (strings.refreshToken.length + 1)) 0)) :
    ∃ heap' fields', TokenMemory.copyStrings ⟨b, 0⟩ strings.tokenType strings.accessToken
        strings.refreshToken ms =
          pure ((), { ms with conn := { ms.conn with heap := heap', fields := fields' } }) ∧
      fields'.expiresAt = ms.conn.fields.expiresAt ∧ fields'.Layout heap' (some strings) := by
  obtain ⟨tokenType, accessToken, refreshToken⟩ := strings
  have hsize : tokenType.length + 1 + (accessToken.length + 1) + (refreshToken.length + 1) =
      (tokenType ++ [0]).length + ((accessToken ++ [0]).length +
        ((refreshToken ++ [0]).length + 0)) := by
    simp only [List.length_append, List.length_singleton]
    omega
  rw [hsize, ← List.nil_append (List.replicate _ _)] at hblock
  obtain ⟨heap₁, hstore₁, hblock₁⟩ := Heap.store_zeros [] (tokenType ++ [0]) hblock
  rw [List.nil_append] at hblock₁
  obtain ⟨heap₂, hstore₂, hblock₂⟩ := Heap.store_zeros _ (accessToken ++ [0]) hblock₁
  obtain ⟨heap₃, hstore₃, hblock₃⟩ := Heap.store_zeros _ (refreshToken ++ [0]) hblock₂
  rw [List.replicate_zero, List.append_nil] at hblock₃
  have hsecond : (⟨b, 0 + (tokenType.length + 1)⟩ : Pointer) = ⟨b, (tokenType ++ [0]).length⟩ := by
    rw [List.length_append, List.length_singleton, Nat.zero_add]
  have hthird : (⟨b, 0 + (tokenType.length + 1) + (accessToken.length + 1)⟩ : Pointer) =
      ⟨b, ((tokenType ++ [0]) ++ (accessToken ++ [0])).length⟩ := by
    simp only [List.length_append, List.length_singleton, Nat.zero_add]
  refine ⟨heap₃, ⟨some ⟨b, 0⟩, some ⟨b, (tokenType ++ [0]).length⟩,
    some ⟨b, ((tokenType ++ [0]) ++ (accessToken ++ [0])).length⟩, ms.conn.fields.expiresAt⟩,
    ?_, rfl, .oneBlock hblock₃ rfl rfl rfl⟩
  unfold TokenMemory.copyStrings
  dsimp only
  rw [hsecond, hthird]
  refine Script.bind_of_eq rfl (Script.bind_of_eq (onHeap_eq hstore₁) ?_)
  refine Script.bind_of_eq rfl (Script.bind_of_eq (onHeap_eq hstore₂) ?_)
  exact Script.bind_of_eq rfl (onHeap_eq hstore₃)

/-- A store is restored alike in memory and on values: either nothing but the time of expiry
changes, or the strings are in one block. -/
private theorem restoreAccessToken_lockstep (json : Option Json)
    (hrep : ms.conn.Represents s.conn.token) :
    Lockstep (fun x y _ => x.1 = y.1 ∧ x.2.conn.Represents y.2.conn.token)
      (TokenMemory.restoreAccessToken json ms) (restoreAccessToken json s) past := by
  -- a document that is not used leaves both as they were
  have unchanged (rc : ℤ) (past : List CallEvent) :
      Lockstep (fun x y _ => x.1 = y.1 ∧ x.2.conn.Represents y.2.conn.token)
        ((pure rc : M TokenMemory ℤ) ms) ((pure rc : M OneDriveConnect ℤ) s) past :=
    .ret ⟨rfl, hrep⟩
  unfold TokenMemory.restoreAccessToken restoreAccessToken
  cases json with
  | none => exact unchanged 0 past
  | some reply =>
  refine Script.lockstep_left rfl (Script.lockstep_right rfl ?_)
  dsimp only
  rw [hrep.clientId]
  by_cases hclient : Json.string? (reply.getObjectItem (ascii "client_id")) ≠
      some s.conn.token.clientId
  · rw [if_pos hclient, if_pos hclient]
    exact unchanged _ past
  rw [if_neg hclient, if_neg hclient]
  cases Json.string? (reply.getObjectItem (ascii "token_type")) with
  | none => exact unchanged 0 past
  | some tokenType =>
  cases Json.string? (reply.getObjectItem (ascii "access_token")) with
  | none => exact unchanged 0 past
  | some accessToken =>
  cases Json.string? (reply.getObjectItem (ascii "refresh_token")) with
  | none => exact unchanged 0 past
  | some refreshToken =>
  cases Json.number? (reply.getObjectItem (ascii "expires_at")) with
  | none => exact unchanged 0 past
  | some expiresAt =>
  refine Script.lockstep_left rfl (Script.lockstep_right rfl ?_)
  unfold TokenMemory.calloc TokenMemory.allocate
  rw [List.length_replicate]
  refine .ask fun allocated => ?_
  cases allocated with
  | false =>
    -- no memory: the time is already set, the strings are the old ones
    obtain ⟨held, hholds, hstrings⟩ := hrep.strings
    refine .ask fun e => .ret ⟨rfl, hrep.clientId, ?_, held, ?_, hstrings⟩
    · change Timeval.mk _ _ = Timeval.mk _ _
      rw [hrep.expiresAt]
    · exact hholds.of_pointers rfl rfl rfl
  | true =>
    -- one block for the three strings, which are copied one after another
    let ms₁ : Thread TokenMemory :=
      { ms with conn := { ms.conn with
        heap := ms.conn.heap.alloc (List.replicate (tokenType.length + 1 +
          (accessToken.length + 1) + (refreshToken.length + 1)) 0)
        fields := { ms.conn.fields with
          expiresAt := ⟨expiresAt.toLong, ms.conn.fields.expiresAt.usec⟩ } } }
    have hblock : ms₁.conn.heap.blocks ms.conn.heap.next = some (List.replicate
        (tokenType.length + 1 + (accessToken.length + 1) + (refreshToken.length + 1)) 0) :=
      Heap.blocks_alloc_self
    obtain ⟨heap, fields, hcopy, hexpires, hlayout⟩ :=
      copyStrings_eq ⟨tokenType, accessToken, refreshToken⟩ hblock
    refine Script.lockstep_left hcopy (.ret ⟨rfl, hrep.clientId, ?_, _, hlayout, rfl, rfl, rfl⟩)
    refine hexpires.trans ?_
    change Timeval.mk _ _ = Timeval.mk _ _
    rw [hrep.expiresAt]

/-- Memory and value return the same. -/
theorem Decoded.result {json : Option Json} {x : ℤ × Thread TokenMemory}
    {y : ℤ × Thread OneDriveConnect} (h : Decoded json ms s x y past) : x.1 = y.1 := by
  cases h with
  | refused _ _ => rfl
  | granted _ _ _ _ => rfl

/-- What a reply does keeps memory and value together. -/
theorem Decoded.represents {json : Option Json} {x : ℤ × Thread TokenMemory}
    {y : ℤ × Thread OneDriveConnect} (h : Decoded json ms s x y past)
    (hrep : ms.conn.Represents s.conn.token) : x.2.conn.Represents y.2.conn.token := by
  cases h with
  | refused _ hblocks =>
    obtain ⟨held, hholds, hstrings⟩ := hrep.strings
    exact ⟨hrep.clientId, hrep.expiresAt, held, hholds.of_blocks hblocks, hstrings⟩
  | granted _ _ hlayout hexpires =>
    exact ⟨hrep.clientId, hexpires, _, hlayout, rfl, rfl, rfl⟩

/-- A reset releases the one block that a restored token has, or the first of the three of a
decoded one. -/
private theorem oauthTokenReset_lockstep (hrep : ms.conn.Represents s.conn.token) :
    Lockstep (fun x y _ => x.2.conn.Represents y.2.conn.token) (TokenMemory.oauthTokenReset ms)
      (resetTokens s) past := by
  obtain ⟨held, hholds, htokenType, -⟩ := hrep.strings
  unfold TokenMemory.oauthTokenReset resetTokens
  rw [Script.get_bind_eq]
  refine Script.lockstep_right rfl ?_
  dsimp only
  rcases hholds.tokenType with ⟨rfl, hunset⟩ | ⟨b, data, hpointer, hblock⟩
  · have hnone : s.conn.token.tokenType = none := htokenType
    rw [hunset, if_pos hnone]
    exact .fault _ _
  · have hset : s.conn.token.tokenType ≠ none := by
      intro hnone
      cases held with
      | none =>
        cases hholds with
        | unset hunset _ _ => cases hpointer.symm.trans hunset
      | some strings => cases htokenType.symm.trans hnone
    obtain ⟨heap', hfree, -, -⟩ := Heap.free_of_blocks hblock
    rw [hpointer, if_neg hset]
    refine Script.lockstep_left (onHeap_eq hfree) (.ret ⟨hrep.clientId, hrep.expiresAt, none, ?_,
      rfl, rfl, rfl⟩)
    exact .unset rfl rfl rfl

/-- Marking the token as expired touches no string. -/
private theorem oauthTokenSetExpired_lockstep (hrep : ms.conn.Represents s.conn.token) :
    Lockstep (fun x y _ => x.2.conn.Represents y.2.conn.token)
      (TokenMemory.oauthTokenSetExpired ms) (oauthTokenSetExpired s) past := by
  obtain ⟨held, hholds, hstrings⟩ := hrep.strings
  exact .ret ⟨hrep.clientId, rfl, held, hholds.of_pointers rfl rfl rfl, hstrings⟩

/-- A token can be destroyed in any layout. -/
private theorem oauthTokenDestructor_eq {held : Option TokenStrings} (hholds : ms.conn.Holds held) :
    ∃ heap', TokenMemory.oauthTokenDestructor ms = pure ((), ms.withHeap heap') := by
  unfold TokenMemory.oauthTokenDestructor
  rw [Script.get_bind_eq]
  rcases hholds.tokenType with ⟨-, hunset⟩ | ⟨b, data, hset, hblock⟩
  · rw [hunset]
    exact ⟨ms.conn.heap, rfl⟩
  · obtain ⟨heap', hfree, -, -⟩ := Heap.free_of_blocks hblock
    rw [hset]
    exact ⟨heap', onHeap_eq hfree⟩

/-! ### The life of a token -/

/-- An operation that moves the strings of a token. -/
inductive StringOperation
  | decode (json : Option Json)
  | restore (store : Option Json)
  | reset
  | setExpired

namespace StringOperation

/-- The function behind the operation, in memory. -/
def inMemory : StringOperation → M TokenMemory ℤ
  | decode json => TokenMemory.decodeAccessToken json
  | restore store => TokenMemory.restoreAccessToken store
  | reset => do TokenMemory.oauthTokenReset; return 0
  | setExpired => do TokenMemory.oauthTokenSetExpired; return 0

/-- The function behind the operation, on values. -/
def onValues : StringOperation → M OneDriveConnect ℤ
  | decode json => decodeAccessToken json
  | restore store => restoreAccessToken store
  | reset => do resetTokens; return 0
  | setExpired => do oauthTokenSetExpired; return 0

/-- Operations one after another, with what they return. -/
def allInMemory : List StringOperation → M TokenMemory (List ℤ)
  | [] => return []
  | op :: ops => do
    let rc ← op.inMemory
    let rcs ← allInMemory ops
    return rc :: rcs

def allOnValues : List StringOperation → M OneDriveConnect (List ℤ)
  | [] => return []
  | op :: ops => do
    let rc ← op.onValues
    let rcs ← allOnValues ops
    return rc :: rcs

/-- An operation does alike in memory and on values. -/
private theorem lockstep (op : StringOperation) (hrep : ms.conn.Represents s.conn.token) :
    Lockstep (fun x y _ => x.1 = y.1 ∧ x.2.conn.Represents y.2.conn.token) (op.inMemory ms)
      (op.onValues s) past := by
  cases op with
  | decode json =>
    obtain ⟨held, hholds, -⟩ := hrep.strings
    exact (decodeAccessToken_lockstep json hholds).mono fun _ _ _ h =>
      ⟨h.result, h.represents hrep⟩
  | restore store => exact restoreAccessToken_lockstep store hrep
  | reset =>
    exact Script.lockstep_bind (oauthTokenReset_lockstep hrep)
      fun _ _ _ _ _ hrep' => .ret ⟨rfl, hrep'⟩
  | setExpired =>
    exact Script.lockstep_bind (oauthTokenSetExpired_lockstep hrep)
      fun _ _ _ _ _ hrep' => .ret ⟨rfl, hrep'⟩

/-- Any sequence of operations does alike in memory and on values. -/
private theorem all_lockstep (ops : List StringOperation) (hrep : ms.conn.Represents s.conn.token) :
    Lockstep (fun x y _ => x.1 = y.1 ∧ x.2.conn.Represents y.2.conn.token) (allInMemory ops ms)
      (allOnValues ops s) past := by
  induction ops generalizing ms s past with
  | nil => exact .ret ⟨rfl, hrep⟩
  | cons op ops ih =>
    refine Script.lockstep_bind (op.lockstep hrep) fun rc rc' ms₁ s₁ _ hfirst => ?_
    obtain ⟨rfl, hrep₁⟩ := hfirst
    refine Script.lockstep_bind (ih hrep₁) fun rcs rcs' ms₂ s₂ _ hrest => ?_
    obtain ⟨rfl, hrep₂⟩ := hrest
    exact .ret ⟨rfl, hrep₂⟩

/-- On values, all that can go wrong is the assertion of a reset without a token. -/
private theorem all_onValues (ops : List StringOperation) :
    Script.wp record (fun fault _ => fault = .assertion) (allOnValues ops) (fun _ _ _ => True) s
      past := by
  induction ops generalizing s past with
  | nil => trivial
  | cons op ops ih =>
    have hop : Script.wp record (fun fault _ => fault = .assertion) op.onValues
        (fun _ _ _ => True) s past := by
      cases op with
      | decode json =>
        exact Script.wp_mono (decodeAccessToken_granted json) (fun _ _ h => h.elim)
          fun _ _ _ _ => trivial
      | restore store =>
        exact Script.wp_mono (restoreAccessToken_spec (F := noFault) store) (fun _ _ h => h.elim)
          fun _ _ _ _ => trivial
      | reset =>
        unfold onValues resetTokens
        simp only [Script.wp_bind, Script.wp_get, Script.wp_ite, Script.wp_fault,
          Script.wp_modify, Script.wp_pure, implies_true, and_self]
      | setExpired => trivial
    rw [allOnValues, Script.wp_bind]
    refine Script.wp_mono hop (fun _ _ h => h) fun rc s₁ past₁ _ => ?_
    rw [Script.wp_bind]
    exact Script.wp_mono ih (fun _ _ h => h) fun _ _ _ _ => trivial

/-- Operations, and the destruction of the token after them. -/
def life (ops : List StringOperation) : M TokenMemory (List ℤ) := do
  let rcs ← allInMemory ops
  TokenMemory.oauthTokenDestructor
  return rcs

/-- In the life of a token no block that is not live is released or written, whatever is decoded and
restored in between: all that can go wrong is the assertion of a reset without a token. -/
theorem life_safe (ops : List StringOperation) (hrep : ms.conn.Represents s.conn.token) :
    Script.wp record (fun fault _ => fault = .assertion) (life ops)
      (fun _ _ _ => True) ms past := by
  rw [life, Script.wp_bind]
  refine Program.wp_mono (fun _ _ h => h) ?_ ((all_lockstep ops hrep).wp_left (all_onValues ops))
  rintro ⟨rcs, ms'⟩ past' ⟨⟨rcs', s'⟩, ⟨-, hrep'⟩, -⟩
  obtain ⟨held, hholds, -⟩ := hrep'.strings
  obtain ⟨heap', hdestroyed⟩ := oauthTokenDestructor_eq hholds
  rw [Script.wp_bind]
  change (TokenMemory.oauthTokenDestructor ms').wp record _ _ past'
  rw [hdestroyed]
  trivial

end StringOperation

end Lockstep

end HiveSDK
