import Marketplace.Lib.Base64
import Marketplace.Lib.Utf8
import Marketplace.Text

/-!
# `jwt-keys.ts` and `validateAuthEnv`

The signing keys as the environment names them: base64 of a PEM, loaded by `node:crypto`, which is a
parameter. An operation that throws is `none`.
-/

namespace Marketplace.Config

/-- `node:crypto` on asymmetric keys. `publicKeyOf` is `createPublicKey` of a key object. -/
structure Crypto (Key : Type) where
  createPrivateKey : Text → Option Key
  createPublicKey : Text → Option Key
  publicKeyOf : Key → Key
  isPrivate : Key → Bool
  asymmetricKeyType : Key → String
  namedCurve : Key → Option String
  exportSpki : Key → List Base64.Byte
  sha256Hex : List Base64.Byte → Text

namespace Crypto

variable {Key : Type} (crypto : Crypto Key)

def decodePem (base64 : Text) : Text := Utf8.decode (Base64.decode base64)

def isEs256 (key : Key) : Bool :=
  crypto.asymmetricKeyType key = "ec" && crypto.namedCurve key = some "prime256v1"

def loadEs256PrivateKey (base64 : Text) : Option Key :=
  (crypto.createPrivateKey (decodePem base64)).filter crypto.isEs256

def loadEs256PublicKey (base64 : Text) : Option Key :=
  (crypto.createPublicKey (decodePem base64)).filter crypto.isEs256

def publicHalf (key : Key) : Key := if crypto.isPrivate key then crypto.publicKeyOf key else key

def publicKeyFingerprint (key : Key) : Text :=
  (crypto.sha256Hex (crypto.exportSpki (crypto.publicHalf key))).take 8

/-- What the documentation of `node:crypto` promises of the two constructors. -/
structure Documented : Prop where
  createPrivateKey : ∀ pem key, crypto.createPrivateKey pem = some key → crypto.isPrivate key = true
  createPublicKey : ∀ pem key, crypto.createPublicKey pem = some key → crypto.isPrivate key = false

variable {crypto} {base64 : Text} {key : Key}

theorem loadEs256PrivateKey_eq_some (hdocumented : crypto.Documented)
    (hload : crypto.loadEs256PrivateKey base64 = some key) :
    crypto.isPrivate key = true ∧ crypto.isEs256 key = true := by
  obtain ⟨hcreate, hes256⟩ := Option.filter_eq_some_iff.mp hload
  exact ⟨hdocumented.createPrivateKey _ key hcreate, hes256⟩

theorem publicHalf_of_loadEs256PublicKey (hdocumented : crypto.Documented)
    (hload : crypto.loadEs256PublicKey base64 = some key) : crypto.publicHalf key = key := by
  obtain ⟨hcreate, -⟩ := Option.filter_eq_some_iff.mp hload
  rw [publicHalf, hdocumented.createPublicKey _ key hcreate, if_neg Bool.false_ne_true]

end Crypto

/-- The variables of the keys. `envSchema` lets no empty `JWT_KID` pass and turns a blank
`JWT_PREVIOUS_*` into `undefined`. -/
structure Env where
  jwtKid : Text
  jwtPrivateKey : Text
  jwtPublicKey : Text
  jwtPreviousKid : Option Text
  jwtPreviousPublicKey : Option Text
  jwtKid_ne_nil : jwtKid ≠ []

/-- `undefined` and the empty text are false. -/
def truthy (text : Option Text) : Option Text := text.filter fun text => !text.isEmpty

def fail {α : Type} (name reason : String) : Except String α :=
  .error ("Помилка конфігурації середовища: " ++ name ++ ": " ++ reason)

def badKey : String :=
  "не base64 від PEM-ключа EC P-256 (ES256); згенеруй: node scripts/gen-jwt-keys.mjs dev"

def validateAuthEnv {Key : Type} (crypto : Crypto Key) (env : Env) : Except String Env :=
  match crypto.loadEs256PrivateKey env.jwtPrivateKey,
    crypto.loadEs256PublicKey env.jwtPublicKey with
  | none, _ => fail "JWT_PRIVATE_KEY" badKey
  | some _, none => fail "JWT_PUBLIC_KEY" badKey
  | some privateKey, some publicKey =>
      if crypto.publicKeyFingerprint privateKey ≠ crypto.publicKeyFingerprint publicKey then
        fail "JWT_PUBLIC_KEY" "не відповідає JWT_PRIVATE_KEY (різні пари ключів)"
      else
        match truthy env.jwtPreviousKid, truthy env.jwtPreviousPublicKey with
        | some _, none =>
            fail "JWT_PREVIOUS_PUBLIC_KEY"
              "потрібні обидві змінні попереднього ключа разом (або жодної)"
        | none, some _ =>
            fail "JWT_PREVIOUS_KID" "потрібні обидві змінні попереднього ключа разом (або жодної)"
        | none, none => .ok env
        | some previousKid, some previousPublicKey =>
            if previousKid = env.jwtKid then
              fail "JWT_PREVIOUS_KID"
                "збігається з JWT_KID: поточний і попередній ключі мають різні kid"
            else
              match crypto.loadEs256PublicKey previousPublicKey with
              | none => fail "JWT_PREVIOUS_PUBLIC_KEY" badKey
              | some _ => .ok env

/-- The slot of the previous key: both variables, or nothing. -/
def Env.previous (env : Env) : Option (Text × Text) :=
  match truthy env.jwtPreviousKid, truthy env.jwtPreviousPublicKey with
  | some previousKid, some previousPublicKey => some (previousKid, previousPublicKey)
  | _, _ => none

/-- What an accepted environment guarantees. -/
structure Env.Valid {Key : Type} (crypto : Crypto Key) (env : Env) (privateKey publicKey : Key) :
    Prop where
  loadsPrivate : crypto.loadEs256PrivateKey env.jwtPrivateKey = some privateKey
  loadsPublic : crypto.loadEs256PublicKey env.jwtPublicKey = some publicKey
  fingerprint : crypto.publicKeyFingerprint privateKey = crypto.publicKeyFingerprint publicKey
  paired : (truthy env.jwtPreviousKid).isSome = (truthy env.jwtPreviousPublicKey).isSome
  previous : ∀ kid text, env.previous = some (kid, text) →
    kid ≠ env.jwtKid ∧ ∃ key, crypto.loadEs256PublicKey text = some key

theorem valid_of_validateAuthEnv {Key : Type} {crypto : Crypto Key} {env env' : Env}
    (haccepted : validateAuthEnv crypto env = .ok env') :
    ∃ privateKey publicKey, env.Valid crypto privateKey publicKey := by
  unfold validateAuthEnv at haccepted
  split at haccepted
  · cases haccepted
  · cases haccepted
  rename_i privateKey publicKey hprivate hpublic
  split at haccepted
  · cases haccepted
  rename_i hfingerprint
  have hsame : crypto.publicKeyFingerprint privateKey = crypto.publicKeyFingerprint publicKey :=
    Decidable.not_not.mp hfingerprint
  refine ⟨privateKey, publicKey, hprivate, hpublic, hsame, ?_, ?_⟩
  · generalize truthy env.jwtPreviousKid = kid, truthy env.jwtPreviousPublicKey = text at haccepted
    match kid, text, haccepted with
    | none, none, _ => rfl
    | some _, some _, _ => rfl
  · intro kid text hprevious
    unfold Env.previous at hprevious
    split at hprevious
    case h_2 => cases hprevious
    rename_i hkid htext
    cases hprevious
    rw [hkid, htext] at haccepted
    dsimp only at haccepted
    split at haccepted
    · cases haccepted
    rename_i hne
    split at haccepted
    · cases haccepted
    rename_i key hkey
    exact ⟨hne, key, hkey⟩

theorem validateAuthEnv_of_valid {Key : Type} {crypto : Crypto Key} {env : Env}
    {privateKey publicKey : Key} (hvalid : env.Valid crypto privateKey publicKey) :
    validateAuthEnv crypto env = .ok env := by
  obtain ⟨hprivate, hpublic, hfingerprint, hpaired, hprevious⟩ := hvalid
  unfold Env.previous at hprevious
  unfold validateAuthEnv
  rw [hprivate, hpublic]
  dsimp only
  rw [if_neg (Decidable.not_not.mpr hfingerprint)]
  generalize truthy env.jwtPreviousKid = kid,
    truthy env.jwtPreviousPublicKey = text at hpaired hprevious
  match kid, text, hpaired, hprevious with
  | none, none, _, _ => rfl
  | some kid, some text, _, hprevious =>
      obtain ⟨hne, key, hkey⟩ := hprevious kid text rfl
      dsimp only
      rw [if_neg hne, hkey]

end Marketplace.Config
