import Marketplace.Config.AuthEnv
import Marketplace.Lib.JsText
import Marketplace.Lib.Transition

/-!
# `gen-jwt-keys.mjs` and `with-secrets.sh`

The directory of a slug as six files, what a run of the generator writes into it, and the
environment that is exported from it. The generated pair and the clock come with the run; a run that
exits with another code than 0 is `none`.
-/

namespace Marketplace.KeyFiles

open Base64 (Byte)
open Config (Crypto Env)
open JsText

/-! ### The directory -/

inductive Slug
  | dev
  | prod

def Slug.text : Slug → Text
  | .dev => ['d', 'e', 'v']
  | .prod => ['p', 'r', 'o', 'd']

structure Files where
  privatePem : Option Text
  publicPem : Option Text
  kid : Option Text
  refreshPepper : Option Text
  previousPublicPem : Option Text
  previousKid : Option Text
  deriving DecidableEq

def Files.empty : Files := ⟨none, none, none, none, none, none⟩

def Files.names (files : Files) : List (Option Text) :=
  [files.privatePem, files.publicPem, files.kid, files.refreshPepper]

/-! ### The generator -/

/-- What `generateKeyPairSync` returns for the curve P-256, with the keys that its texts load as. -/
structure KeyPair {Key : Type} (crypto : Crypto Key) where
  privatePem : Text
  publicPem : Text
  privateKey : Key
  publicKey : Key
  privatePem_ne_nil : privatePem ≠ []
  publicPem_ne_nil : publicPem ≠ []
  loadsPrivate : crypto.createPrivateKey privatePem = some privateKey
  loadsPublic : crypto.createPublicKey publicPem = some publicKey
  es256Private : crypto.isEs256 privateKey = true
  es256Public : crypto.isEs256 publicKey = true
  paired : crypto.publicKeyOf privateKey = publicKey

inductive Mode
  | first
  | rotate
  | force
  deriving DecidableEq

/-- `newDate` and `dateNow` are two readings of the clock. -/
structure Run {Key : Type} (crypto : Crypto Key) where
  mode : Mode
  pair : KeyPair crypto
  pepper : { bytes : List Byte // bytes.length = 32 }
  newDate : Nat
  dateNow : Nat

variable {Key : Type} {crypto : Crypto Key}

def kidOf (slug : Slug) (run : Run crypto) (previousKid : Option Text) : Text :=
  let kid := slug.text ++ '-' :: isoDate run.newDate
  if some kid = previousKid then kid ++ '-' :: toString36 run.dateNow else kid

def refuses (files : Files) : Mode → Bool
  | .rotate => files.names.any fun file => file.isNone
  | .force => false
  | .first => files.names.any fun file => file.isSome

def written (slug : Slug) (files : Files) (run : Run crypto) : Files :=
  let previousKid := if run.mode = .rotate then files.kid.map trim else none
  let copied :=
    if run.mode = .rotate then { files with previousPublicPem := files.publicPem, previousKid }
    else files
  let generated := { copied with
    privatePem := some run.pair.privatePem
    publicPem := some run.pair.publicPem
    kid := some (kidOf slug run previousKid) }
  if run.mode = .rotate then generated
  else { generated with refreshPepper := some (Base64.encode run.pepper) }

def genJwtKeys (slug : Slug) (files : Files) (run : Run crypto) : Option Files :=
  if refuses files run.mode then none else some (written slug files run)

/-! ### The environment -/

/-- `$(tr -d '\r\n' < file)`. -/
def shellText (content : Text) : Text := content.filter fun char => char ≠ '\r' ∧ char ≠ '\n'

def base64Of (content : Text) : Text := Base64.encodeStandard (Utf8.encode content)

def optionalVault (value : Option Text) : Option Text := value.filter fun text => trim text ≠ []

/-- `JWT_PREVIOUS_KID` and `JWT_PREVIOUS_PUBLIC_KEY`. -/
def exportPrevious (files : Files) : Option Text × Option Text :=
  match files.previousPublicPem, files.previousKid with
  | some previousPublicPem, some previousKid =>
      (some (shellText previousKid), some (base64Of previousPublicPem))
  | _, _ => (none, none)

/-- What the script exports of the directory, as `envSchema` reads it; `none` where a variable that
is needed is missing or too short. -/
def exportEnv (files : Files) : Option Env :=
  match files.privatePem, files.publicPem, files.kid, files.refreshPepper with
  | some privatePem, some publicPem, some kid, some refreshPepper =>
      if hset : shellText kid ≠ [] ∧ base64Of privatePem ≠ [] ∧ base64Of publicPem ≠ [] ∧
          32 ≤ (shellText refreshPepper).length then
        some {
          jwtKid := shellText kid
          jwtPrivateKey := base64Of privatePem
          jwtPublicKey := base64Of publicPem
          jwtPreviousKid := optionalVault (exportPrevious files).1
          jwtPreviousPublicKey := optionalVault (exportPrevious files).2
          jwtKid_ne_nil := hset.1 }
      else none
  | _, _, _, _ => none

/-! ### What the texts are made of -/

theorem plain_alphabet (sextet : Base64.Sextet) : Plain [Base64.alphabet sextet] := by
  revert sextet
  decide

theorem plain_standardAlphabet (sextet : Base64.Sextet) :
    Plain [Base64.standardAlphabet sextet] := by
  revert sextet
  decide

theorem plain_encode (bytes : List Byte) : Plain (Base64.encode bytes) := by
  intro char hchar
  obtain ⟨sextet, -, rfl⟩ := List.mem_map.mp hchar
  exact plain_alphabet sextet _ List.mem_cons_self

theorem plain_base64Of (content : Text) : Plain (base64Of content) := by
  apply Plain.append
  · intro char hchar
    obtain ⟨sextet, -, rfl⟩ := List.mem_map.mp hchar
    exact plain_standardAlphabet sextet _ List.mem_cons_self
  · intro char hchar
    rw [List.eq_of_mem_replicate hchar]
    decide

theorem shellText_of_plain {text : Text} (hplain : Plain text) : shellText text = text := by
  rw [shellText, List.filter_eq_self]
  intro char hchar
  obtain ⟨hlow, -⟩ := hplain char hchar
  have hne : ∀ other : Char, other.toNat ≤ 0x20 → char ≠ other := by
    rintro other hother rfl
    omega
  exact decide_eq_true ⟨hne _ (by decide), hne _ (by decide)⟩

theorem optionalVault_of_plain {text : Text} (hplain : Plain text) (hne : text ≠ []) :
    optionalVault (some text) = some text := by
  rw [optionalVault, Option.filter_eq_some_iff]
  refine ⟨rfl, decide_eq_true ?_⟩
  rwa [trim_of_plain hplain]

/-- What the generator writes as a `kid`. -/
structure IsKid (kid : Text) : Prop where
  plain : Plain kid
  ne_nil : kid ≠ []

theorem isKid_append {left right : Text} (hleft : Plain left) (hright : Plain right) :
    IsKid (left ++ '-' :: right) := by
  have hdash : Plain ['-'] := by decide
  exact ⟨hleft.append (hdash.cons hright), by simp⟩

theorem isKid_kidOf (slug : Slug) (run : Run crypto) (previousKid : Option Text) :
    IsKid (kidOf slug run previousKid) := by
  have hslug : Plain slug.text := by cases slug <;> decide
  have hdated := isKid_append hslug (plain_isoDate run.newDate)
  unfold kidOf
  dsimp only
  split
  · exact isKid_append hdated.plain (plain_toString36 _)
  · exact hdated

/-- The new `kid` is never the one that goes to the previous slot in the same run. -/
theorem kidOf_ne (slug : Slug) (run : Run crypto) (previousKid : Option Text) :
    some (kidOf slug run previousKid) ≠ previousKid := by
  unfold kidOf
  dsimp only
  split
  case isTrue heq =>
    rw [← heq]
    intro hsame
    have hlength := congrArg List.length (Option.some.inj hsame)
    rw [List.length_append, List.length_cons] at hlength
    omega
  case isFalse hne => exact hne

theorem base64Of_ne_nil {content : Text} (hne : content ≠ []) : base64Of content ≠ [] := by
  intro hnil
  have hback := Base64.decode_encodeStandard (Utf8.encode content)
  rw [show Base64.encodeStandard (Utf8.encode content) = [] from hnil] at hback
  apply hne
  rw [← Utf8.decode_encode content, ← hback]
  rfl

theorem decodePem_base64Of (content : Text) : Crypto.decodePem (base64Of content) = content := by
  rw [Crypto.decodePem, base64Of, Base64.decode_encodeStandard, Utf8.decode_encode]

namespace KeyPair

variable (pair : KeyPair crypto)

theorem loadEs256PrivateKey :
    crypto.loadEs256PrivateKey (base64Of pair.privatePem) = some pair.privateKey := by
  rw [Crypto.loadEs256PrivateKey, decodePem_base64Of, pair.loadsPrivate]
  exact Option.filter_eq_some_iff.mpr ⟨rfl, pair.es256Private⟩

theorem loadEs256PublicKey :
    crypto.loadEs256PublicKey (base64Of pair.publicPem) = some pair.publicKey := by
  rw [Crypto.loadEs256PublicKey, decodePem_base64Of, pair.loadsPublic]
  exact Option.filter_eq_some_iff.mpr ⟨rfl, pair.es256Public⟩

theorem publicKeyFingerprint (hdocumented : crypto.Documented) :
    crypto.publicKeyFingerprint pair.privateKey = crypto.publicKeyFingerprint pair.publicKey := by
  have hprivate := hdocumented.createPrivateKey _ _ pair.loadsPrivate
  have hpublic := hdocumented.createPublicKey _ _ pair.loadsPublic
  simp [Crypto.publicKeyFingerprint, Crypto.publicHalf, hprivate, hpublic, pair.paired]

end KeyPair

end Marketplace.KeyFiles
