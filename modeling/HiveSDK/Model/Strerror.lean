import HiveSDK.Model.Environment

/-!
# Error messages

`hive_get_strerror` of `hive_error.c`, with the tables it looks messages up in (`hive_error.c`,
`http_status.c` and `http_client.c`). The table of facilities is the initial one:
`hive_register_strerror` is called nowhere.

What the C library and libcurl say is a parameter, `Library`. The memory at a pointer is the list of
the bytes from there on, as far as the caller cares; a write behind its end is a fault.
-/

namespace HiveSDK

open Interaction C

/-! ### The tables -/

/-- A table of `ErrorDesc`. -/
abbrev ErrorTable := List (ℤ × Bytes)

def HIVEERR_NOT_READY : ℤ := 0x07
def HIVEERR_NOT_EXIST : ℤ := 0x08
def HIVEERR_ALREADY_EXIST : ℤ := 0x09
def HIVEERR_INVALID_USERID : ℤ := 0x0A
def HIVEERR_WRONG_STATE : ℤ := 0x0B
def HIVEERR_BUSY : ℤ := 0x0C
def HIVEERR_LANGUAGE_BINDING : ℤ := 0x0D
def HIVEERR_ENCRYPT : ℤ := 0x0E
def HIVEERR_NOT_IMPLEMENTED : ℤ := 0x0F
def HIVEERR_ENCRYPTED_PERSISTENT_DATA : ℤ := 0x12
def HIVEERR_BAD_BOOTSTRAP_PORT : ℤ := 0x14
def HIVEERR_UNKNOWN : ℤ := 0xFF

/-- `error_codes` of `hive_error.c`. -/
def errorCodes : ErrorTable := [
  (HIVEERR_INVALID_ARGS, ascii "Invalid argument(s)"),
  (HIVEERR_OUT_OF_MEMORY, ascii "Out of memory"),
  (HIVEERR_BUFFER_TOO_SMALL, ascii "Too small buffer size"),
  (HIVEERR_BAD_PERSISTENT_DATA, ascii "Bad persistent data"),
  (HIVEERR_INVALID_PERSISTENCE_FILE, ascii "Invalid persistent file"),
  (HIVEERR_INVALID_CREDENTIAL, ascii "Invalid credential"),
  (HIVEERR_NOT_READY, ascii "SDK not ready"),
  (HIVEERR_NOT_EXIST, ascii "Entity not exists"),
  (HIVEERR_ALREADY_EXIST, ascii "Entity already exists"),
  (HIVEERR_INVALID_USERID, ascii "Invalid user id"),
  (HIVEERR_WRONG_STATE, ascii "Being in wrong state"),
  (HIVEERR_BUSY, ascii "Instance is being busy"),
  (HIVEERR_LANGUAGE_BINDING, ascii "Language binding error"),
  (HIVEERR_ENCRYPT, ascii "Encrypt error"),
  (HIVEERR_NOT_IMPLEMENTED, ascii "Not implemented yet"),
  (HIVEERR_NOT_SUPPORTED, ascii "Not supported"),
  (HIVEERR_LIMIT_EXCEEDED, ascii "Exceeding the limit"),
  (HIVEERR_ENCRYPTED_PERSISTENT_DATA, ascii "Load encrypted persistent data error"),
  (HIVEERR_BAD_BOOTSTRAP_HOST, ascii "Bad bootstrap host"),
  (HIVEERR_BAD_BOOTSTRAP_PORT, ascii "Bad bootstrap port"),
  (HIVEERR_BAD_ADDRESS, ascii "Bad carrier node address"),
  (HIVEERR_BAD_JSON_FORMAT, ascii "Bad json format"),
  (HIVEERR_TRY_AGAIN, ascii "Try again the operation"),
  (HIVEERR_UNKNOWN, ascii "Unknown error")]

/-- `status_codes` of `http_status.c`. -/
def statusCodes : ErrorTable := [
  (100, ascii "Continue"),
  (101, ascii "Switching Protocols"),
  (102, ascii "Processing"),
  (103, ascii "Early Hints"),
  (200, ascii "OK"),
  (201, ascii "Created"),
  (202, ascii "Accepted"),
  (203, ascii "Non-Authoritative Information"),
  (204, ascii "No Content"),
  (205, ascii "Reset Content"),
  (206, ascii "Partial Content"),
  (207, ascii "Multi-Status"),
  (208, ascii "Already Reported"),
  (226, ascii "IM Used"),
  (300, ascii "Multiple Choices"),
  (301, ascii "Moved Permanently"),
  (302, ascii "Found"),
  (303, ascii "See Other"),
  (304, ascii "Not Modified"),
  (305, ascii "Use Proxy"),
  (307, ascii "Temporary Redirect"),
  (308, ascii "Permanent Redirect"),
  (400, ascii "Bad Request"),
  (401, ascii "Unauthorized"),
  (402, ascii "Payment Required"),
  (403, ascii "Forbidden"),
  (404, ascii "Not Found"),
  (405, ascii "Method Not Allowed"),
  (406, ascii "Not Acceptable"),
  (407, ascii "Proxy Authentication Required"),
  (408, ascii "Request Timeout"),
  (409, ascii "Conflict"),
  (410, ascii "Gone"),
  (411, ascii "Length Required"),
  (412, ascii "Precondition Failed"),
  (413, ascii "Payload Too Large"),
  (414, ascii "URI Too Long"),
  (415, ascii "Unsupported Media Type"),
  (416, ascii "Range Not Satisfiable"),
  (417, ascii "Expectation Failed"),
  (418, ascii "I'm a teapot"),
  (422, ascii "Unprocessable Entity"),
  (423, ascii "Locked"),
  (424, ascii "Failed Dependency"),
  (426, ascii "Upgrade Required"),
  (428, ascii "Precondition Required"),
  (429, ascii "Too Many Requests"),
  (431, ascii "Request Header Fields Too Large"),
  (451, ascii "Unavailable For Legal Reasons"),
  (500, ascii "Internal Server Error"),
  (501, ascii "Not Implemented"),
  (502, ascii "Bad Gateway"),
  (503, ascii "Service Unavailable"),
  (504, ascii "Gateway Time-out"),
  (505, ascii "HTTP Version Not Supported"),
  (506, ascii "Variant Also Negotiates"),
  (507, ascii "Insufficient Storage"),
  (508, ascii "Loop Detected"),
  (510, ascii "Not Extended"),
  (511, ascii "Network Authentication Required")]

/-- `curlu_codes` of `http_client.c`; the codes are those of libcurl's `CURLUcode`. -/
def curluCodes : ErrorTable := [
  (1, ascii "CURLU pointer argument passed as NULL."),
  (2, ascii "part argument passed as NULL."),
  (3, ascii "a malformed input passed."),
  (4, ascii "invalid port number"),
  (5, ascii "unsupported scheme"),
  (6, ascii "URL decode error"),
  (7, ascii "a memory function failed"),
  (8, ascii "credentials was passed when prohibited"),
  (9, ascii "an unknown part ID"),
  (10, ascii "no scheme part in the URL"),
  (11, ascii "no user part in the URL"),
  (12, ascii "no password part in the URL"),
  (13, ascii "no options part in the URL"),
  (14, ascii "no host part in the URL"),
  (15, ascii "no port part in the URL"),
  (16, ascii "no query part in the URL"),
  (17, ascii "no fragment part in the URL")]

/-- The loop over a table. -/
def describe (table : ErrorTable) (errcode : ℤ) : Option Bytes :=
  (table.find? fun desc => desc.1 = errcode).map Prod.snd

/-! ### The facilities -/

/-- What the functions of other libraries say: `strerror_r` (the value returned, and the bytes it
stores) and `curl_easy_strerror` (`none` for `NULL`). -/
structure Library where
  strerrorR : ℤ → ℕ → ℤ × Bytes
  curlEasyStrerror : ℤ → Option Bytes

/-- `strcpy(buf, s)`, `none` when it leaves the memory at `buf`. -/
def strcpy (buf s : Bytes) : Option Bytes := memcpy buf 0 (s ++ [0])

/-- A `strerror_func_t`: the value returned and the memory at `buf`; `none` when it is left. -/
abbrev StrerrorFunc := ℤ → Bytes → ℕ → Option (ℤ × Bytes)

/-- Copy a message, if there is one and it fits. -/
def copyMessage (tooSmall : ℤ) (message : Option Bytes) (buf : Bytes) (len : ℕ) :
    Option (ℤ × Bytes) :=
  match message with
  | none => some (toInt (hiveGeneralError HIVEERR_INVALID_ARGS), buf)
  | some errstr =>
    if len ≤ errstr.length then some (toInt (hiveGeneralError tooSmall), buf)
    else (strcpy buf errstr).map fun buf => (0, buf)

/-- `general_error`. -/
def generalError : StrerrorFunc := fun errcode =>
  copyMessage HIVEERR_INVALID_ARGS (describe errorCodes errcode)

/-- `http_status_error`. -/
def httpStatusError : StrerrorFunc := fun errcode =>
  copyMessage HIVEERR_INVALID_ARGS (describe statusCodes errcode)

/-- `curlu_error`, with `curlu_strerror`. -/
def curluError : StrerrorFunc := fun errcode =>
  copyMessage HIVEERR_BUFFER_TOO_SMALL (describe curluCodes errcode)

section Facilities

variable (lib : Library)

/-- `curl_error`. -/
def curlError : StrerrorFunc := fun errcode =>
  copyMessage HIVEERR_BUFFER_TOO_SMALL (lib.curlEasyStrerror errcode)

/-- `system_error`. -/
def systemError : StrerrorFunc := fun errcode buf len =>
  let (rc, stored) := lib.strerrorR errcode len
  (memcpy buf 0 stored).map fun buf =>
    (if rc < 0 then toInt (hiveSysError HIVEERR_INVALID_ARGS) else 0, buf)

/-- `FacilityDesc`. -/
structure FacilityDesc where
  desc : Bytes
  errstring : Option StrerrorFunc

/-- `facility_codes`. -/
def facilityCodes : List FacilityDesc := [
  ⟨ascii "[General] ", some generalError⟩,
  ⟨ascii "[System] ", some (systemError lib)⟩,
  ⟨ascii "Reserved facility", none⟩,
  ⟨ascii "Reserved facility", none⟩,
  ⟨ascii "[curl] ", some (curlError lib)⟩,
  ⟨ascii "[curlu] ", some curluError⟩,
  ⟨ascii "[httpstat] ", some httpStatusError⟩]

/-- `rc`, and the memory at `buf`, once the function of a facility has been called, if there is
one. -/
def FacilityDesc.call (faci : FacilityDesc) : StrerrorFunc := fun errcode buf len =>
  match faci.errstring with
  | none => some (0, buf)
  | some errstring => errstring errcode buf len

variable {C : Type}

/-- `hive_get_strerror` once the facility is known: whether `buf` is returned, and the memory at
`buf` afterwards. -/
def strerrorOf (faci : FacilityDesc) (errcode : ℤ) (buf : Bytes) (len : ℕ) :
    M C (Bool × Bytes) := do
  let descLen := faci.desc.length
  if len < descLen then
    hiveSetError (toInt (hiveGeneralError HIVEERR_BUFFER_TOO_SMALL))
    return (false, buf)
  match strcpy buf faci.desc with
  | none => crash .bufferOverrun
  | some buf =>
    match faci.call errcode (buf.drop descLen) (len - descLen) with
    | none => crash .bufferOverrun
    | some (rc, p) =>
      if rc < 0 then
        hiveSetError rc
        return (false, buf.take descLen ++ p)
      return (true, buf.take descLen ++ p)

/-- `hive_get_strerror`. The shift of a negative `int` brings in ones from above, which the mask
removes again. -/
def hiveGetStrerror (errnum : ℤ) (buf : Option Bytes) (len : ℕ) : M C (Bool × Option Bytes) := do
  let bits := (toUInt errnum).toNat
  let negative := bits &&& 0x80000000 ≠ 0
  let facility := (bits >>> 24) &&& 0x0F
  let errcode : ℕ := bits &&& 0x00FFFFFF
  match buf with
  | none =>
    hiveSetError (toInt (hiveGeneralError HIVEERR_INVALID_ARGS))
    return (false, none)
  | some buf =>
    if ¬negative ∨ facility = 0 ∨ (facilityCodes lib).length < facility then
      hiveSetError (toInt (hiveGeneralError HIVEERR_INVALID_ARGS))
      return (false, some buf)
    match (facilityCodes lib)[facility - 1]? with
    | none => crash .bufferOverrun
    | some faci =>
      let (returned, buf) ← strerrorOf faci errcode buf len
      return (returned, some buf)

end Facilities

end HiveSDK
