import HiveSDK.Model.Strerror
import Mathlib.Tactic.IntervalCases

/-!
# What error numbers decode to

An error number is a facility and a code behind the sign bit; `hive_get_strerror` takes them apart
again, and writes the prefix of the facility and the message for the code to the caller's buffer.

The buffer is given its length and the memory behind it, so that a write past its end shows. Two
things go wrong. A buffer exactly as long as the prefix passes the length test, and the terminator
is written behind it. And `strerror_r` reports its errors by positive numbers, while only negative
ones are tested for.
-/

namespace HiveSDK

open Interaction C

/-! ### The fields of an error number -/

/-- The top bit of the 32 bits. -/
def Errnum.negative (errnum : ℤ) : Prop := 2 ^ 31 ≤ (toUInt errnum).toNat

instance (errnum : ℤ) : Decidable (Errnum.negative errnum) := inferInstanceAs (Decidable (_ ≤ _))

/-- Bits 24 to 27. -/
def Errnum.facility (errnum : ℤ) : ℕ := (toUInt errnum).toNat / 2 ^ 24 % 16

/-- The lower 24 bits. -/
def Errnum.code (errnum : ℤ) : ℕ := (toUInt errnum).toNat % 2 ^ 24

private theorem toUInt_toNat_lt (x : ℤ) : (toUInt x).toNat < 2 ^ 32 := by
  unfold toUInt
  omega

/-- The sign bit of the code is the sign of the number. -/
private theorem bits_negative (errnum : ℤ) :
    (toUInt errnum).toNat &&& 0x80000000 ≠ 0 ↔ Errnum.negative errnum := by
  have hlt := toUInt_toNat_lt errnum
  unfold Errnum.negative
  generalize (toUInt errnum).toNat = bits at hlt
  rw [show (0x80000000 : ℕ) = 2 ^ 31 from rfl, Nat.and_two_pow]
  rcases Nat.lt_or_ge bits (2 ^ 31) with hsmall | hlarge
  · rw [Nat.testBit_lt_two_pow hsmall]
    simpa using hsmall
  · rw [Nat.testBit_eq_decide_div_mod_eq, show bits / 2 ^ 31 = 1 by omega]
    simpa using hlarge

/-- The shift and the mask give the facility. -/
private theorem bits_facility (errnum : ℤ) :
    (toUInt errnum).toNat >>> 24 &&& 0x0F = Errnum.facility errnum := by
  rw [Nat.shiftRight_eq_div_pow, show (0x0F : ℕ) = 2 ^ 4 - 1 from rfl,
    Nat.and_two_pow_sub_one_eq_mod]
  rfl

/-- The mask gives the code. -/
private theorem bits_code (errnum : ℤ) :
    (toUInt errnum).toNat &&& 0x00FFFFFF = Errnum.code errnum := by
  rw [show (0x00FFFFFF : ℕ) = 2 ^ 24 - 1 from rfl, Nat.and_two_pow_sub_one_eq_mod]
  rfl

/-- The fields of an error number that has been put together from them. -/
private theorem fields_hiveMkError {facility code : ℕ} (hf : facility < 16) (hc : code < 2 ^ 24) :
    Errnum.negative (toInt (hiveMkError facility code)) ∧
      Errnum.facility (toInt (hiveMkError facility code)) = facility ∧
      Errnum.code (toInt (hiveMkError facility code)) = code := by
  have hbits : (toUInt (toInt (hiveMkError facility code))).toNat =
      2 ^ 31 + facility * 2 ^ 24 + code := by
    rw [toUInt_toInt, hiveMkError_eq (by omega) hc, toUInt_eq_self (by omega) (by omega),
      Int.toNat_natCast]
  unfold Errnum.negative Errnum.facility Errnum.code
  rw [hbits]
  omega

/-! ### The text for an error number -/

/-- What is documented of `strerror_r`, when `strerror` gives the messages of the errors there are:
it stores no more than `len` bytes; a message that fits is stored with its terminator and 0
returned; and otherwise a positive error number is returned. -/
structure Documented (lib : Library) (strerror : ℤ → Option Bytes) : Prop where
  bounded : ∀ e len, (lib.strerrorR e len).2.length ≤ len
  complete : ∀ e len m, strerror e = some m → m.length < len → lib.strerrorR e len = (0, m ++ [0])
  fails : ∀ e len, (∀ m, strerror e = some m → len ≤ m.length) → 0 < (lib.strerrorR e len).1

section Text

variable (lib : Library) (strerror : ℤ → Option Bytes)

/-- The message a facility has for a code. The reserved facilities have an empty one. -/
def messageOf (facility : ℕ) (code : ℤ) : Option Bytes :=
  if facility = HIVEF_GENERAL then describe errorCodes code
  else if facility = HIVEF_SYS then strerror code
  else if facility = HIVEF_CURL then lib.curlEasyStrerror code
  else if facility = HIVEF_CURLU then describe curluCodes code
  else if facility = HIVEF_HTTP_STATUS then describe statusCodes code
  else some []

/-- The facility an error number belongs to, if it is one. -/
def facilityOf (errnum : ℤ) : Option FacilityDesc :=
  if Errnum.negative errnum ∧ Errnum.facility errnum ≠ 0 then
    (facilityCodes lib)[Errnum.facility errnum - 1]?
  else none

/-- The prefix of the facility and its message, if the number is one of an error. -/
def textOf (errnum : ℤ) : Option Bytes :=
  (facilityOf lib errnum).bind fun faci =>
    (messageOf lib strerror (Errnum.facility errnum) (Errnum.code errnum)).map (faci.desc ++ ·)

end Text

/-- How a text is told: it is at the beginning of the buffer, with its terminator, or there is none
that fits and a negative error stands for it. -/
inductive Told (text : Option Bytes) (front : Bytes) : Bool → ℤ → Prop
  | text {t : Bytes} {e : ℤ} (htext : text = some t) (hfit : t.length < front.length)
      (hfront : t ++ [0] <+: front) : Told text front true e
  | null {e : ℤ} (hno : ∀ t, text = some t → front.length ≤ t.length) (he : e < 0) :
      Told text front false e

/-- The buffer of the caller: `NULL` with any length, or so many bytes. -/
inductive Buffer
  | null (len : ℕ)
  | block (front : Bytes)

/-- `hive_get_strerror` decodes an error number into a buffer: whatever memory lies behind the
buffer, it comes to an end, has left this memory alone, and has told the text. -/
def Decodes (lib : Library) (strerror : ℤ → Option Bytes) (errnum : ℤ) : Buffer → Prop
  | .null len => ∀ (C : Type) (s : Thread C), ∃ s',
      hiveGetStrerror lib errnum none len s = .ret ((false, none), s') ∧ s'.hiveError < 0
  | .block front => ∀ (C : Type) (s : Thread C) (rest : Bytes), ∃ returned front' s',
      hiveGetStrerror lib errnum (some (front ++ rest)) front.length s =
        .ret ((returned, some (front' ++ rest)), s') ∧
      front'.length = front.length ∧ Told (textOf lib strerror errnum) front' returned s'.hiveError

/-! ### The functions of the facilities -/

/-- What a facility does for a code whose message is `message`, in a buffer that holds the empty
string. -/
def Tells (f : Bytes → ℕ → Option (ℤ × Bytes)) (message : Option Bytes) (front rest : Bytes) :
    Prop :=
  ∃ rc front', f (front ++ rest) front.length = some (rc, front' ++ rest) ∧
    front'.length = front.length ∧ Told message front' (decide (0 ≤ rc)) rc

/-- A string that has room is copied with its end, and what lies behind stays. -/
private theorem strcpy_append {front rest s : Bytes} (h : s.length < front.length) :
    strcpy (front ++ rest) s = some (s ++ [0] ++ front.drop (s.length + 1) ++ rest) := by
  have hlength : (s ++ [0]).length = s.length + 1 := List.length_append
  have hcopy := memcpy_append [] (front ++ rest) (s ++ [0])
  rw [if_pos (by rw [hlength, List.length_append]; omega), hlength, List.nil_append,
    List.nil_append, List.drop_append_of_le_length (by omega), ← List.append_assoc] at hcopy
  exact hcopy

/-- A table of messages tells what it finds, or that there is no room. -/
private theorem copyMessage_tells (tooSmall : ℤ) (message : Option Bytes) (front rest : Bytes) :
    Tells (copyMessage tooSmall message) message front rest := by
  unfold Tells copyMessage
  cases message with
  | none =>
    refine ⟨_, front, rfl, rfl, ?_⟩
    rw [decide_eq_false (toInt_hiveGeneralError_neg _).not_ge]
    exact .null nofun (toInt_hiveGeneralError_neg _)
  | some m =>
    dsimp only
    by_cases hfit : front.length ≤ m.length
    · rw [if_pos hfit]
      refine ⟨_, front, rfl, rfl, ?_⟩
      rw [decide_eq_false (toInt_hiveGeneralError_neg _).not_ge]
      refine .null ?_ (toInt_hiveGeneralError_neg _)
      rintro t ⟨⟩
      exact hfit
    · rw [not_le] at hfit
      have hlength : (m ++ [0] ++ front.drop (m.length + 1)).length = front.length := by
        simp only [List.length_append, List.length_drop, List.length_singleton]
        omega
      rw [if_neg (by omega), strcpy_append hfit]
      exact ⟨0, _, rfl, hlength, .text rfl (hlength ▸ hfit) (List.prefix_append _ _)⟩

/-- So does the facility of the system, where `strerror_r` does not fail. -/
private theorem systemError_tells {lib : Library} {strerror : ℤ → Option Bytes}
    (hdoc : Documented lib strerror) {code : ℤ} {front rest : Bytes}
    (hfits : ∃ m, strerror code = some m ∧ m.length < front.length) :
    Tells (systemError lib code) (strerror code) front rest := by
  obtain ⟨m, hm, hfit⟩ := hfits
  have hlength : (m ++ [0] ++ front.drop (m.length + 1)).length = front.length := by
    simp only [List.length_append, List.length_drop, List.length_singleton]
    omega
  have hcopy : memcpy (front ++ rest) 0 (m ++ [0]) = _ := strcpy_append hfit
  unfold Tells systemError
  rw [hdoc.complete code _ m hm hfit]
  dsimp only
  rw [hcopy]
  exact ⟨0, _, rfl, hlength, .text hm (hlength ▸ hfit) (List.prefix_append _ _)⟩

/-- A message that does not fit, or a number that is no error, is not noticed. -/
private theorem systemError_fails {lib : Library} {strerror : ℤ → Option Bytes}
    (hdoc : Documented lib strerror) {code : ℤ} {front : Bytes}
    (hno : ∀ m, strerror code = some m → front.length ≤ m.length) :
    ∃ front', systemError lib code front front.length = some (0, front') := by
  have hpos := hdoc.fails code front.length hno
  have hbounded := hdoc.bounded code front.length
  unfold systemError
  generalize lib.strerrorR code front.length = r at hpos hbounded
  obtain ⟨rc, stored⟩ := r
  have hroom : 0 + stored.length ≤ front.length := by rwa [Nat.zero_add]
  simp only [memcpy, hroom, hpos.not_gt, if_true, if_false, Option.map_some]
  exact ⟨_, rfl⟩

/-- The empty string is the message of a reserved facility. -/
private theorem reserved_tells {front rest : Bytes} (hfront : [0] <+: front) :
    Tells (fun buf _ => some (0, buf)) (some []) front rest :=
  ⟨0, front, rfl, rfl, .text rfl hfront.length_le hfront⟩

/-! ### The whole function -/

section Decode

variable {lib : Library} {strerror : ℤ → Option Bytes} {errnum : ℤ}

/-- What is left of the buffer behind the prefix: it begins with the terminator. -/
def behindPrefix (faci : FacilityDesc) (front : Bytes) : Bytes :=
  [0] ++ front.drop (faci.desc.length + 1)

/-- The room that the prefix leaves. -/
private theorem length_behindPrefix {faci : FacilityDesc} {front : Bytes}
    (h : faci.desc.length < front.length) :
    (behindPrefix faci front).length = front.length - faci.desc.length := by
  rw [behindPrefix, List.length_append, List.length_drop, List.length_singleton]
  omega

/-- With room for the prefix, what happens is up to the function of the facility. -/
private theorem strerrorOf_eq {C : Type} {faci : FacilityDesc} {code : ℕ} {front rest p : Bytes}
    {rc : ℤ}
    (hlen : faci.desc.length < front.length)
    (hcall : faci.call code (behindPrefix faci front ++ rest) (behindPrefix faci front).length =
      some (rc, p)) (s : Thread C) :
    strerrorOf faci code (front ++ rest) front.length s =
      .ret ((decide (0 ≤ rc), faci.desc ++ p),
        if rc < 0 then { s with hiveError := rc } else s) := by
  have hprefix : strcpy (front ++ rest) faci.desc =
      some (faci.desc ++ (behindPrefix faci front ++ rest)) := by
    rw [strcpy_append hlen, behindPrefix]
    simp only [List.append_assoc]
  rw [length_behindPrefix hlen] at hcall
  unfold strerrorOf
  rw [if_neg (by omega), hprefix]
  dsimp only
  rw [List.take_left, List.drop_left, hcall]
  dsimp only
  by_cases hneg : rc < 0
  · rw [if_pos hneg, if_pos hneg, decide_eq_false (by omega)]
    rfl
  · rw [if_neg hneg, if_neg hneg, decide_eq_true (by omega)]
    rfl

/-- What `strerrorOf` makes of a facility whose function tells the message. -/
private theorem strerrorOf_tells {C : Type} {faci : FacilityDesc} {code : ℕ}
    {message : Option Bytes}
    {front rest : Bytes} (hlen : faci.desc.length < front.length)
    (htells : Tells (faci.call code) message (behindPrefix faci front) rest) (s : Thread C) :
    ∃ returned front' s', strerrorOf faci code (front ++ rest) front.length s =
        .ret ((returned, front' ++ rest), s') ∧ front'.length = front.length ∧
      Told (message.map (faci.desc ++ ·)) front' returned s'.hiveError := by
  obtain ⟨rc, front₁, hcall, hlength, htold⟩ := htells
  have hwhole : (faci.desc ++ front₁).length = front.length := by
    rw [List.length_append, hlength, length_behindPrefix hlen]
    omega
  rw [strerrorOf_eq hlen hcall, ← List.append_assoc]
  refine ⟨_, _, _, rfl, hwhole, ?_⟩
  generalize decide (0 ≤ rc) = returned at htold
  cases htold with
  | text hmessage hfit hfront =>
    refine .text (congrArg _ hmessage) ?_ ?_
    · rw [List.length_append, List.length_append]
      omega
    · rw [List.append_assoc]
      exact (List.prefix_append_right_inj _).mpr hfront
  | null hno he =>
    rw [if_pos he]
    refine .null ?_ he
    rintro t ht
    obtain ⟨m, hm, rfl⟩ := Option.map_eq_some_iff.mp ht
    have := hno m hm
    rw [List.length_append, List.length_append]
    omega

/-- The function of a facility tells its message, with the proviso that `strerror_r` does not
fail. -/
private theorem call_tells (hdoc : Documented lib strerror) {n : ℕ} {faci : FacilityDesc} {code : ℤ}
    {front rest : Bytes} (hn : n ≠ 0) (hfaci : (facilityCodes lib)[n - 1]? = some faci)
    (hfits : n = HIVEF_SYS → ∃ m, strerror code = some m ∧ m.length < front.length)
    (hfront : [0] <+: front) :
    Tells (faci.call code) (messageOf lib strerror n code) front rest := by
  have hn7 : n ≤ 7 := by
    by_contra hlarge
    rw [List.getElem?_eq_none (show (facilityCodes lib).length ≤ n - 1 by
      change 7 ≤ n - 1
      omega)] at hfaci
    cases hfaci
  interval_cases n
  · exact absurd rfl hn
  · cases hfaci
    exact copyMessage_tells _ _ _ _
  · cases hfaci
    exact systemError_tells hdoc (hfits rfl)
  · cases hfaci
    exact reserved_tells hfront
  · cases hfaci
    exact reserved_tells hfront
  · cases hfaci
    exact copyMessage_tells _ _ _ _
  · cases hfaci
    exact copyMessage_tells _ _ _ _
  · cases hfaci
    exact copyMessage_tells _ _ _ _

/-- A facility that is found is that of a negative number. -/
private theorem facilityOf_eq_some {faci : FacilityDesc} (h : facilityOf lib errnum = some faci) :
    Errnum.negative errnum ∧ Errnum.facility errnum ≠ 0 ∧
      (facilityCodes lib)[Errnum.facility errnum - 1]? = some faci := by
  unfold facilityOf at h
  split at h
  · rename_i hcond
    exact ⟨hcond.1, hcond.2, h⟩
  · cases h

/-- A number that belongs to a facility is looked up there, and nowhere else. -/
private theorem hiveGetStrerror_of_facility {C : Type} {faci : FacilityDesc}
    (h : facilityOf lib errnum = some faci) (buf : Bytes) (len : ℕ) :
    (hiveGetStrerror lib errnum (some buf) len : M C (Bool × Option Bytes)) = (do
      let (returned, buf) ← strerrorOf faci (Errnum.code errnum) buf len
      return (returned, some buf)) := by
  obtain ⟨hnegative, hne, hfaci⟩ := facilityOf_eq_some h
  have hlength : Errnum.facility errnum - 1 < (facilityCodes lib).length :=
    (List.getElem?_eq_some_iff.mp hfaci).1
  have hcond : ¬(¬(toUInt errnum).toNat &&& 0x80000000 ≠ 0 ∨
      (toUInt errnum).toNat >>> 24 &&& 0x0F = 0 ∨
      (facilityCodes lib).length < (toUInt errnum).toNat >>> 24 &&& 0x0F) := by
    rw [bits_negative, bits_facility]
    rintro (hpos | hzero | hlarge)
    · exact hpos hnegative
    · exact hne hzero
    · omega
  unfold hiveGetStrerror
  dsimp only
  rw [if_neg hcond, bits_facility, hfaci, bits_code]

/-- A number that belongs to none is refused. -/
private theorem hiveGetStrerror_of_none {C : Type} (h : facilityOf lib errnum = none) (buf : Bytes)
    (len : ℕ) : (hiveGetStrerror lib errnum (some buf) len : M C (Bool × Option Bytes)) = (do
      hiveSetError (toInt (hiveGeneralError HIVEERR_INVALID_ARGS))
      return (false, some buf)) := by
  have hcond : ¬(toUInt errnum).toNat &&& 0x80000000 ≠ 0 ∨
      (toUInt errnum).toNat >>> 24 &&& 0x0F = 0 ∨
      (facilityCodes lib).length < (toUInt errnum).toNat >>> 24 &&& 0x0F := by
    rw [bits_negative, bits_facility]
    by_contra hno
    push Not at hno
    obtain ⟨hnegative, hne, hle⟩ := hno
    unfold facilityOf at h
    rw [if_pos ⟨hnegative, hne⟩] at h
    have hlength : (facilityCodes lib).length ≤ Errnum.facility errnum - 1 :=
      List.getElem?_eq_none_iff.mp h
    omega
  unfold hiveGetStrerror
  dsimp only
  rw [if_pos hcond]

/-- The condition under which the text is told: the buffer is not exactly as long as the prefix,
and `strerror_r` does not fail. -/
def RoomFor (lib : Library) (strerror : ℤ → Option Bytes) (errnum : ℤ) : Buffer → Prop
  | .null _ => True
  | .block front => ∀ faci, facilityOf lib errnum = some faci →
      front.length ≠ faci.desc.length ∧
      (Errnum.facility errnum = HIVEF_SYS → faci.desc.length < front.length →
        ∃ m, strerror (Errnum.code errnum) = some m ∧
          faci.desc.length + m.length < front.length)

private theorem refused_neg {C : Type} (s : Thread C) {e : ℤ} (he : e < 0) :
    ({ s with hiveError := e } : Thread C).hiveError < 0 :=
  he

/-- Nothing else can go wrong. -/
private theorem decodes_of_roomFor (hdoc : Documented lib strerror) {buffer : Buffer}
    (h : RoomFor lib strerror errnum buffer) : Decodes lib strerror errnum buffer := by
  cases buffer with
  | null len => exact fun C s => ⟨_, rfl, refused_neg s (toInt_hiveGeneralError_neg _)⟩
  | block front =>
  intro C s rest
  cases hfaci : facilityOf lib errnum with
  | none =>
    have htext : textOf lib strerror errnum = none := by rw [textOf, hfaci, Option.bind_none]
    rw [hiveGetStrerror_of_none hfaci, htext]
    exact ⟨false, front, _, rfl, rfl, .null nofun (refused_neg s (toInt_hiveGeneralError_neg _))⟩
  | some faci =>
    obtain ⟨hne, hsys⟩ := h faci hfaci
    obtain ⟨-, hfacility, hcodes⟩ := facilityOf_eq_some hfaci
    have htext : textOf lib strerror errnum =
        (messageOf lib strerror (Errnum.facility errnum) (Errnum.code errnum)).map
          (faci.desc ++ ·) := by
      rw [textOf, hfaci, Option.bind_some]
    rw [hiveGetStrerror_of_facility hfaci, htext]
    -- the prefix is copied first, and its text is put behind it
    rcases Nat.lt_or_ge front.length faci.desc.length with hshort | hle
    · -- not even the prefix fits
      unfold strerrorOf
      dsimp only
      rw [if_pos hshort]
      refine ⟨false, front, _, rfl, rfl, .null ?_ (refused_neg s (toInt_hiveGeneralError_neg _))⟩
      intro t ht
      obtain ⟨m, -, rfl⟩ := Option.map_eq_some_iff.mp ht
      rw [List.length_append]
      omega
    · have hlen : faci.desc.length < front.length := by omega
      obtain ⟨returned, front', s', hrun, hlength, htold⟩ :=
        strerrorOf_tells hlen (call_tells hdoc hfacility hcodes (fun heq => by
          obtain ⟨m, hm, hfit⟩ := hsys heq hlen
          exact ⟨m, hm, by rw [length_behindPrefix hlen]; omega⟩) (List.prefix_append _ _)) s
      refine ⟨returned, front', s', ?_, hlength, htold⟩
      change Program.bind _ _ = _
      rw [hrun]
      rfl

/-- A buffer as long as the prefix is overrun. -/
private theorem not_decodes_of_length_eq {front : Bytes} {faci : FacilityDesc}
    (hfaci : facilityOf lib errnum = some faci) (hlength : front.length = faci.desc.length) :
    ¬Decodes lib strerror errnum (.block front) := by
  intro h
  obtain ⟨returned, front', s', hrun, -⟩ := h Unit ⟨(), 0⟩ []
  have hoverrun : strcpy (front ++ []) faci.desc = none := by
    rw [strcpy, memcpy, if_neg]
    rw [List.append_nil, List.length_append, List.length_singleton]
    omega
  rw [hiveGetStrerror_of_facility hfaci] at hrun
  unfold strerrorOf at hrun
  dsimp only at hrun
  rw [if_neg (by omega), hoverrun] at hrun
  cases hrun

/-- A failure of `strerror_r` is taken for a success. -/
private theorem not_decodes_of_strerrorR (hdoc : Documented lib strerror) {front : Bytes}
    {faci : FacilityDesc} (hfaci : facilityOf lib errnum = some faci)
    (hsys : Errnum.facility errnum = HIVEF_SYS) (hlen : faci.desc.length < front.length)
    (hno : ∀ m, strerror (Errnum.code errnum) = some m →
      front.length ≤ faci.desc.length + m.length) :
    ¬Decodes lib strerror errnum (.block front) := by
  intro h
  obtain ⟨returned, front', s', hrun, hlength, htold⟩ := h Unit ⟨(), 0⟩ []
  have hcall : ∃ p, faci.call (Errnum.code errnum) (behindPrefix faci front ++ [])
      (behindPrefix faci front).length = some (0, p) := by
    obtain ⟨-, -, hcodes⟩ := facilityOf_eq_some hfaci
    rw [hsys] at hcodes
    have hfails : ∃ p, systemError lib (Errnum.code errnum) (behindPrefix faci front)
        (behindPrefix faci front).length = some (0, p) :=
      systemError_fails hdoc fun m hm => by
        rw [length_behindPrefix hlen]
        have := hno m hm
        omega
    cases hcodes
    rw [List.append_nil]
    exact hfails
  obtain ⟨p, hcall⟩ := hcall
  have hcode := strerrorOf_eq hlen hcall (⟨(), 0⟩ : Thread Unit)
  rw [hiveGetStrerror_of_facility hfaci] at hrun
  change Program.bind _ _ = _ at hrun
  rw [hcode] at hrun
  obtain rfl : true = returned := congrArg (fun r => r.1.1) (Program.ret.inj hrun)
  -- a text has been told, so it would have to fit
  cases htold with
  | text htext hfit hfront =>
    rw [textOf, hfaci, Option.bind_some, hsys] at htext
    obtain ⟨m, hm, rfl⟩ := Option.map_eq_some_iff.mp htext
    have := hno m hm
    rw [List.length_append] at hfit
    omega

end Decode

/-- An error number is decoded into a buffer exactly when the buffer is not as long as the prefix
and `strerror_r` does not fail; and a number put together from a facility and a code is looked up in
that facility, with that code. -/
theorem hiveGetStrerror_decodes_iff {lib : Library} {strerror : ℤ → Option Bytes}
    (hdoc : Documented lib strerror) :
    (∀ facility code : ℕ, 1 ≤ facility → facility ≤ 7 → code < 2 ^ 24 →
      ∃ faci, (facilityCodes lib)[facility - 1]? = some faci ∧ ∀ (C : Type) buf len,
        (hiveGetStrerror lib (toInt (hiveMkError facility code)) (some buf) len :
          M C (Bool × Option Bytes)) = (do
            let (returned, buf) ← strerrorOf faci code buf len
            return (returned, some buf))) ∧
    ∀ errnum buffer, Decodes lib strerror errnum buffer ↔ RoomFor lib strerror errnum buffer := by
  constructor
  · intro facility code hpos hle hcode
    obtain ⟨hnegative, hfacility, hcodeOf⟩ := fields_hiveMkError (show facility < 16 by omega) hcode
    have hlt : facility - 1 < (facilityCodes lib).length := by
      change facility - 1 < 7
      omega
    refine ⟨_, List.getElem?_eq_getElem hlt, fun C buf len => ?_⟩
    have hfaci : facilityOf lib (toInt (hiveMkError facility code)) =
        some (facilityCodes lib)[facility - 1] := by
      rw [facilityOf, if_pos ⟨hnegative, by omega⟩, hfacility, List.getElem?_eq_getElem hlt]
    rw [hiveGetStrerror_of_facility hfaci, hcodeOf]
  · intro errnum buffer
    refine ⟨fun h => ?_, decodes_of_roomFor hdoc⟩
    cases buffer with
    | null len => trivial
    | block front =>
      intro faci hfaci
      refine ⟨fun hlength => not_decodes_of_length_eq hfaci hlength h, fun hsys hlen => ?_⟩
      by_contra hno
      refine not_decodes_of_strerrorR hdoc hfaci hsys hlen (fun m hm => ?_) h
      by_contra hfit
      exact hno ⟨m, hm, by omega⟩

/-! ### A buffer of ten bytes -/

/-- A C library that knows no message but one, and libcurl without any. -/
def tersely : Library where
  strerrorR e len :=
    if e = 0 then
      if len ≤ 7 then (34, []) else (0, ascii "Success" ++ [0])
    else (22, [])
  curlEasyStrerror _ := none

/-- The message. -/
def terse (e : ℤ) : Option Bytes := if e = 0 then some (ascii "Success") else none

private theorem documented_tersely : Documented tersely terse where
  bounded e len := by
    unfold tersely
    dsimp only
    split
    · split
      · exact Nat.zero_le _
      · change 8 ≤ len
        omega
    · exact Nat.zero_le _
  complete e len m hm hfit := by
    unfold terse at hm
    split at hm
    · rename_i he
      cases hm
      have hlen : ¬len ≤ 7 := not_le.mpr hfit
      simp only [tersely, he, hlen, if_true, if_false]
    · cases hm
  fails e len hno := by
    unfold tersely
    dsimp only
    split
    · rename_i he
      have hlen : len ≤ 7 := hno (ascii "Success") (if_pos he)
      rw [if_pos hlen]
      decide
    · decide

/-- The number of an error whose text fits a longer buffer. -/
def tryAgainError : ℤ := toInt (hiveGeneralError HIVEERR_TRY_AGAIN)

private theorem facilityOf_tryAgainError :
    facilityOf tersely tryAgainError = some ⟨ascii "[General] ", some generalError⟩ := rfl

theorem hiveGetStrerror_decodes_iff_tersely :
    Decodes tersely terse tryAgainError (.block (List.replicate 64 0)) := by
  refine ((hiveGetStrerror_decodes_iff documented_tersely).2 _ _).mpr fun faci hfaci => ?_
  obtain rfl := Option.some.inj (facilityOf_tryAgainError.symm.trans hfaci)
  exact ⟨by decide, fun hsys => absurd hsys (by decide)⟩

/-- The prefix of a general error is ten bytes long, and so is this buffer. -/
theorem hiveGetStrerror_overruns : ¬∀ lib strerror, Documented lib strerror →
    ∀ errnum buffer, Decodes lib strerror errnum buffer := by
  intro h
  have hdecodes := h tersely terse documented_tersely tryAgainError (.block (List.replicate 10 0))
  exact not_decodes_of_length_eq facilityOf_tryAgainError rfl hdecodes

end HiveSDK
