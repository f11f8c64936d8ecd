import SharedTree.Auth.Problem
import SharedTree.Change
import SharedTree.Ordinal.Basic
import SharedTree.Wire.Value

/-!
Identities, records and errors as plain data. What is named by a word travels as that word, and is
also read from an object whose only key is the word and whose value there is null. A record travels
as an object; it is also read from an array of all its fields in order. An object may have fields
that mean nothing here, and a field that may be missing is taken to be null.
-/

namespace SharedTree.Wire

/-! ## Reading -/

/-- An id travels as its text. -/
def entryId? (v : Value) : Option EntryId := (text? v).map .mk

/-- A handle travels as its number. -/
def handle? (v : Value) : Option Handle := (int64? v).map .mk

/-- What a word names, among given things. -/
def named? {α : Type} (all : List α) (name : α → String) : Value → Option α
  | .text s => all.find? (name · = s)
  | .object [(s, .null)] => all.find? (name · = s)
  | _ => none

def writer? : Value → Option Writer := named? Writer.all Writer.name

def changeKind? : Value → Option ChangeKind := named? ChangeKind.all ChangeKind.name

def authState? : Value → Option AuthState := named? AuthState.all AuthState.name

/-- The fields of a record by name; those in `optional` may be missing. -/
def fields? (names optional : List String) : Value → Option (List Value)
  | .object fields => names.mapM fun name =>
    match fields.lookup name with
    | some v => some v
    | none => if optional.contains name then some .null else none
  | .list items => if items.length = names.length then some items else none
  | _ => none

def change? (v : Value) : Option Change := do
  match ← fields? ["id", "action", "position_changed"] [] v with
  | [id, action, positionChanged] =>
    return ⟨← handle? id, ← changeKind? action, ← boolean? positionChanged⟩
  | _ => none

def captcha? (v : Value) : Option Captcha := do
  match ← fields? ["token", "image_url", "unlock_url"] [] v with
  | [token, imageUrl, unlockUrl] =>
    return ⟨← text? token, ← text? imageUrl, ← text? unlockUrl⟩
  | _ => none

def authProblem? (v : Value) : Option AuthProblem := do
  match ← fields? ["state", "captcha"] ["captcha"] v with
  | [state, captcha] => return ⟨← authState? state, ← nullable? captcha? captcha⟩
  | _ => none

def byte? (v : Value) : Option UInt8 := do
  let n ← count? v
  if n < 256 then some (UInt8.ofNat n) else none

/-- An ordinal travels as the list of its digits. Digits that are no ordinal are refused with their
fault, anything else without one. -/
def ordinal? : Value → Except (Option Ordinal.Fault) Ordinal
  | .list items =>
    match items.mapM byte? with
    | some digits => (Ordinal.ofDigits digits).mapError some
    | none => .error none
  | _ => .error none

/-! ## Writing -/

def ofEntryId (id : EntryId) : Value := .text id.text

def ofHandle (h : Handle) : Value := .integer h.number

def ofWriter (writer : Writer) : Value := .text writer.name

def ofChangeKind (action : ChangeKind) : Value := .text action.name

def ofAuthState (state : AuthState) : Value := .text state.name

def ofChange (record : Change) : Value :=
  .object [("id", ofHandle record.id), ("action", ofChangeKind record.kind),
    ("position_changed", .boolean record.positionChanged)]

def ofCaptcha (challenge : Captcha) : Value :=
  .object [("token", .text challenge.token), ("image_url", .text challenge.imageUrl),
    ("unlock_url", .text challenge.unlockUrl)]

def ofAuthProblem (error : AuthProblem) : Value :=
  .object [("state", ofAuthState error.state),
    ("captcha", (error.captcha.map ofCaptcha).getD .null)]

def ofOrdinal (a : Ordinal) : Value := .list (a.digits.map fun d => .integer d.toNat)

end SharedTree.Wire
