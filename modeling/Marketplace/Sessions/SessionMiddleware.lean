import Marketplace.Lib.JsText
import Marketplace.Lib.UriComponent
import Marketplace.Sessions.SessionStore

/-!
# The session cookie

`sessionMiddleware` reads the `sid` of a Cookie header, whatever the client has put there. A header
that Node has received holds no surrogates, so it is a text.
-/

namespace Marketplace.Sessions

open JsText (isSpace isSpace_eq_false trim trim_pad)

def sessionCookie : Text := ['s', 'i', 'd']

/-- A `URIError`. -/
inductive UriError where
  | malformed
  deriving DecidableEq

def decodeURIComponent (text : Text) : Except UriError Text :=
  match UriComponent.decode text with
  | some decoded => .ok decoded
  | none => .error .malformed

/-- The part is a pair with this name. -/
def isNamed (name part : Text) : Bool :=
  part.contains '=' && trim (part.takeWhile (· ≠ '=')) = name

/-- What follows the first `=`. -/
def rawValue (part : Text) : Text := trim (part.dropWhile (· ≠ '=')).tail

def readParts (name : Text) : List Text → Except UriError (Option Text)
  | [] => .ok none
  | part :: parts =>
      if isNamed name part then (decodeURIComponent (rawValue part)).map some
      else readParts name parts

def readCookie (header : Option Text) (name : Text) : Except UriError (Option Text) :=
  match header with
  | none | some [] => .ok none
  | some header => readParts name (header.splitOn ';')

/-- The `Set-Cookie` header. -/
def setSessionCookie (production : Bool) (sid : Text) (ttlSec : Nat) : Text :=
  sessionCookie ++ '=' :: UriComponent.encode sid ++
    ("; Max-Age=".toList ++ decimal ttlSec ++ "; Path=/; HttpOnly; SameSite=Lax".toList ++
      if production then "; Secure".toList else [])

/-- What the middleware has added to the request and the response, and the argument of `next`. -/
structure Handled (Session : Type) where
  sessionId : Option Text
  session : Option Session
  setCookie : List Text
  next : Option UriError
  deriving DecidableEq

/-- `store` is `get` of a store that works. -/
def sessionMiddleware {Session : Type} (store : Text → Option Session) (ttlSec : Nat)
    (production : Bool) (header : Option Text) : Handled Session :=
  match readCookie header sessionCookie with
  | .error error => ⟨none, none, [], some error⟩
  | .ok none => ⟨none, none, [], none⟩
  | .ok (some sid) =>
      if sid = [] then ⟨none, none, [], none⟩
      else
        match store sid with
        | none => ⟨none, none, [], none⟩
        | some session => ⟨some sid, some session, [setSessionCookie production sid ttlSec], none⟩

/-! ### Which headers fail -/

/-- In the first pair named `sid` every `%` begins the escape of a character. -/
def SidWellFormed (header : Text) : Prop :=
  ∀ part, (header.splitOn ';').find? (isNamed sessionCookie) = some part →
    UriComponent.WellFormed (rawValue part)

section Reading

variable {Session : Type} {name part value : Text} {parts : List Text} {header : Text}

theorem decodeURIComponent_eq_ok {decoded : Text} :
    decodeURIComponent value = .ok decoded ↔ UriComponent.Encodes value decoded := by
  rw [← UriComponent.decode_eq_some, decodeURIComponent]
  cases UriComponent.decode value <;> simp

theorem readParts_eq (name : Text) (parts : List Text) :
    readParts name parts =
      match parts.find? (isNamed name) with
      | some part => (decodeURIComponent (rawValue part)).map some
      | none => .ok none := by
  induction parts with
  | nil => rfl
  | cons part parts ih =>
      rw [readParts, List.find?_cons]
      cases isNamed name part with
      | true => rfl
      | false => exact ih

theorem readCookie_eq (header name : Text) :
    readCookie (some header) name = readParts name (header.splitOn ';') := by
  cases header with
  | nil => rfl
  | cons => rfl

theorem readCookie_isOk_iff :
    (∃ sid, readCookie (some header) sessionCookie = .ok sid) ↔ SidWellFormed header := by
  rw [readCookie_eq, readParts_eq, SidWellFormed]
  cases hfind : (header.splitOn ';').find? (isNamed sessionCookie) with
  | none => simp
  | some part =>
      simp only [Option.some.injEq, forall_eq', UriComponent.WellFormed, ← decodeURIComponent_eq_ok]
      cases decodeURIComponent (rawValue part) <;> simp [Except.map]

theorem next_eq_none_iff (store : Text → Option Session) (ttlSec : Nat) (production : Bool) :
    (sessionMiddleware store ttlSec production (some header)).next = none ↔
    SidWellFormed header := by
  rw [← readCookie_isOk_iff, sessionMiddleware]
  cases readCookie (some header) sessionCookie with
  | error error => simp
  | ok sid =>
      cases sid with
      | none => simp
      | some sid =>
          by_cases hempty : sid = []
          · simp [hempty]
          · cases hstore : store sid <;> simp [hempty, hstore]

/-! ### A session cookie between others -/

/-- What a browser sends back of a `Set-Cookie` header. -/
def cookiePair (setCookie : Text) : Text := setCookie.takeWhile (· ≠ ';')

/-- The parts of a Cookie header, with any white space around them. -/
def cookieHeader (parts : List Text) : Text := [';'].intercalate parts

variable {pad left right : Text} {char : Char}

theorem isSpace_of_mem_encode {sid : Text} (hmem : char ∈ UriComponent.encode sid) :
    isSpace char = false := by
  rcases UriComponent.unreserved_of_mem_encode hmem with hchar | rfl
  · obtain ⟨hlow, hhigh⟩ := UriComponent.range_of_unreserved hchar
    exact isSpace_eq_false ⟨by omega, by omega⟩
  · rfl

/-- The encoded `sid` does not look like the end of its pair. -/
theorem separator_not_mem_encode (sid : Text) : ';' ∉ UriComponent.encode sid := by
  intro hmem
  have hchar := UriComponent.unreserved_of_mem_encode hmem
  revert hchar
  decide

theorem ne_of_mem_front {front : Text} {stop : Char} (hfront : stop ∉ front) :
    ∀ char ∈ front, decide (char ≠ stop) = true := by
  intro char hmem
  rw [decide_eq_true_eq]
  rintro rfl
  exact hfront hmem

theorem takeWhile_stop {front back : Text} {stop : Char} (hfront : stop ∉ front) :
    (front ++ stop :: back).takeWhile (· ≠ stop) = front := by
  rw [List.takeWhile_append_of_pos (ne_of_mem_front hfront), List.takeWhile_cons]
  simp

theorem dropWhile_stop {front back : Text} {stop : Char} (hfront : stop ∉ front) :
    (front ++ stop :: back).dropWhile (· ≠ stop) = stop :: back := by
  rw [List.dropWhile_append_of_pos (ne_of_mem_front hfront), List.dropWhile_cons]
  simp

theorem cookiePair_setSessionCookie (production : Bool) (sid : Text) (ttlSec : Nat) :
    cookiePair (setSessionCookie production sid ttlSec) =
      sessionCookie ++ '=' :: UriComponent.encode sid := by
  apply takeWhile_stop
  rw [List.mem_append, List.mem_cons]
  rintro (hname | heq | hsid)
  · revert hname
    decide
  · revert heq
    decide
  · exact separator_not_mem_encode sid hsid

theorem not_mem_pad (hpad : ∀ char ∈ pad, isSpace char = true) (hchar : isSpace char = false) :
    char ∉ pad := by
  intro hmem
  rw [hpad char hmem] at hchar
  cases hchar

theorem eq_not_mem_pad (hleft : ∀ char ∈ left, isSpace char = true) :
    '=' ∉ left ++ sessionCookie := by
  rw [List.mem_append]
  rintro (hmem | hmem)
  · exact not_mem_pad hleft (by decide) hmem
  · revert hmem
    decide

theorem isNamed_pair (hleft : ∀ char ∈ left, isSpace char = true) (value : Text) :
    isNamed sessionCookie (left ++ sessionCookie ++ '=' :: value) = true := by
  have hname : ∀ char ∈ sessionCookie, isSpace char = false := by simp [sessionCookie, isSpace]
  have htrim : trim (left ++ (sessionCookie ++ [])) = sessionCookie :=
    trim_pad hleft hname (by simp)
  rw [List.append_nil] at htrim
  rw [isNamed, takeWhile_stop (eq_not_mem_pad hleft), htrim]
  simp

theorem rawValue_pair (hleft : ∀ char ∈ left, isSpace char = true)
    (hright : ∀ char ∈ right, isSpace char = true) (sid : Text) :
    rawValue (left ++ sessionCookie ++ '=' :: (UriComponent.encode sid ++ right)) =
      UriComponent.encode sid := by
  have hnil : ∀ char ∈ ([] : Text), isSpace char = true := nofun
  rw [rawValue, dropWhile_stop (eq_not_mem_pad hleft)]
  exact trim_pad hnil (fun _ => isSpace_of_mem_encode) hright

theorem readParts_of_mem {before after : List Text} {decoded : Text}
    (hbefore : ∀ other ∈ before, isNamed name other = false) (hpart : isNamed name part = true)
    (hdecoded : UriComponent.Encodes (rawValue part) decoded) :
    readParts name (before ++ part :: after) = .ok (some decoded) := by
  have hnone : before.find? (isNamed name) = none := by
    rw [List.find?_eq_none]
    intro other hmem
    rw [hbefore other hmem]
    exact Bool.false_ne_true
  rw [readParts_eq, List.find?_append, hnone, Option.none_or, List.find?_cons_of_pos hpart]
  simp only [decodeURIComponent_eq_ok.mpr hdecoded]
  rfl

end Reading

/-- The `sid` is read back from its cookie, between any other cookies. -/
def Survives (production : Bool) (ttlSec : Nat) (sid : Text) : Prop :=
  ∀ (before after : List Text) (left right : Text),
    (∀ other ∈ before ++ after, ';' ∉ other ∧ isNamed sessionCookie other = false) →
    (∀ char ∈ left ++ right, isSpace char = true) →
    readCookie (some (cookieHeader (before ++
      (left ++ cookiePair (setSessionCookie production sid ttlSec) ++ right) :: after)))
      sessionCookie =
        .ok (some sid)

theorem survives (production : Bool) (ttlSec : Nat) (sid : Text) :
    Survives production ttlSec sid := by
  intro before after left right hothers hpad
  have hleft : ∀ char ∈ left, isSpace char = true :=
    fun char hmem => hpad char (List.mem_append_left _ hmem)
  have hright : ∀ char ∈ right, isSpace char = true :=
    fun char hmem => hpad char (List.mem_append_right _ hmem)
  have hpart : left ++ cookiePair (setSessionCookie production sid ttlSec) ++ right =
      left ++ sessionCookie ++ '=' :: (UriComponent.encode sid ++ right) := by
    rw [cookiePair_setSessionCookie]
    simp
  have hpair : ';' ∉ left ++ cookiePair (setSessionCookie production sid ttlSec) ++ right := by
    rw [List.mem_append, List.mem_append]
    rintro ((hmem | hmem) | hmem)
    · exact not_mem_pad hleft (by decide) hmem
    · have hne := List.mem_takeWhile_imp hmem
      revert hne
      decide
    · exact not_mem_pad hright (by decide) hmem
  have hseparator : ∀ part ∈ before ++
      (left ++ cookiePair (setSessionCookie production sid ttlSec) ++ right) :: after,
      ';' ∉ part := by
    intro part hmem
    rcases List.mem_append.mp hmem with hbefore | hmem
    · exact (hothers part (List.mem_append_left _ hbefore)).1
    · rcases List.mem_cons.mp hmem with rfl | hafter
      · exact hpair
      · exact (hothers part (List.mem_append_right _ hafter)).1
  rw [readCookie_eq, cookieHeader, List.splitOn_intercalate _ hseparator (by simp)]
  apply readParts_of_mem
  · intro other hmem
    exact (hothers other (List.mem_append_left _ hmem)).2
  · rw [hpart]
    exact isNamed_pair hleft _
  · rw [hpart, rawValue_pair hleft hright]
    exact UriComponent.encodes_encode sid

/-- A header makes `sessionMiddleware` fail exactly if the value of its `sid` is not percent-encoded
UTF-8, and the `sid` that `create` has drawn is read back. -/
theorem sessionMiddleware_harmless_iff {Session : Type} (store : Text → Option Session)
    (ttlSec : Nat) (production : Bool) :
    (∀ header, (sessionMiddleware store ttlSec production (some header)).next = none ↔
      SidWellFormed header) ∧
    ∀ bytes : List Base64.Byte, bytes.length = 32 →
      Survives production ttlSec (Base64.encode bytes) :=
  ⟨fun _ => next_eq_none_iff store ttlSec production,
    fun bytes _ => survives production ttlSec (Base64.encode bytes)⟩

/-- A `%` in another cookie does no harm. -/
theorem sessionMiddleware_harmless_iff_others :
    (sessionMiddleware (fun _ => some 5) sessionTtlSec false (some ['a', '=', '%'])).next = none ∧
      readCookie (some (cookieHeader ([['a', '=', '%']] ++
        ([' '] ++ cookiePair
          (setSessionCookie false (Base64.encode (List.replicate 32 7)) 1800) ++ []) ::
          [[' ', 'b']]))) sessionCookie =
        .ok (some (Base64.encode (List.replicate 32 7))) := by
  have hharmless := sessionMiddleware_harmless_iff (fun _ => some 5) sessionTtlSec false
  constructor
  · rw [hharmless.1]
    intro part hpart
    have hnone : (['a', '=', '%'].splitOn ';').find? (isNamed sessionCookie) = none := by decide
    rw [hnone] at hpart
    cases hpart
  · have hspace : ∀ char ∈ [' '] ++ [], isSpace char = true := by simp [isSpace]
    exact hharmless.2 (List.replicate 32 7) rfl [['a', '=', '%']] [[' ', 'b']] [' '] []
      (by decide) hspace

/-- The store would have said that there is no such session. -/
theorem percent_cookie_fails :
    let store := fun sid => (get {} (fun _ => none) 0 sid).1
    store ['%'] = none ∧
      (sessionMiddleware store sessionTtlSec false (some ['s', 'i', 'd', '=', '%'])).next =
        some .malformed := by
  decide

end Marketplace.Sessions
