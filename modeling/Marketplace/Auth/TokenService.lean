import Marketplace.Config.AuthEnv
import Marketplace.Lib.Double
import Marketplace.Orders.OrdersGateway

/-!
# `KeyStore` and `TokenService`

Access tokens as they are on the wire. `jsonwebtoken` is a parameter, and so is what makes numbers
of texts and texts of numbers; `Jwt.Documented` states what is used of it. An exception is its
message.
-/

namespace Marketplace.TokenService

open Checkout (JsNumber)
open Config (Crypto Env truthy)
open OrdersService (toNumber)

structure SignOptions where
  algorithm : Text
  keyid : Text
  issuer : Text
  audience : Text
  subject : Text
  jwtid : Text
  expiresIn : Nat
  deriving DecidableEq

structure VerifyOptions where
  algorithms : List Text
  issuer : Text
  audience : Text

/-- `jsonwebtoken`. `sign` takes the members of its payload, the time and the randomness of the
signature; `decode` returns header and payload. `signed` says that the ES256 signature in a token is
one over its header and payload under a public key, which is what `verify` checks. -/
structure Jwt (Key Token : Type) where
  sign : List (Text × Json) → Key → SignOptions → Nat → Nat → Token
  decode : Token → Option (Json × Json)
  verify : Token → Key → VerifyOptions → Nat → Except String Json
  signed : Token → Key → Bool

def algKey : Text := ['a', 'l', 'g']
def kidKey : Text := ['k', 'i', 'd']
def issKey : Text := ['i', 's', 's']
def audKey : Text := ['a', 'u', 'd']
def subKey : Text := ['s', 'u', 'b']
def jtiKey : Text := ['j', 't', 'i']
def iatKey : Text := ['i', 'a', 't']
def expKey : Text := ['e', 'x', 'p']
def nbfKey : Text := ['n', 'b', 'f']
def roleKey : Text := ['r', 'o', 'l', 'e']
def fidKey : Text := ['f', 'i', 'd']

/-- The claims that `sign` takes from its options. -/
def registeredClaims : List Text := [issKey, subKey, audKey, expKey, nbfKey, iatKey, jtiKey]

/-- The audience is the claim, or one of its items. -/
def Addressed (audience : Text) : Json → Prop
  | .string text => text = audience
  | .array items => .string audience ∈ items
  | _ => False

/-- Header and claims of a token that `sign` made. The `exp` is the sum, where a double holds both
the time and the sum exactly. -/
structure SignedAs (number : Text → JsNumber) (payload : List (Text × Json)) (options : SignOptions)
    (now : Nat) (header claims : Json) : Prop where
  alg : header.get algKey = some (.string options.algorithm)
  kid : header.get kidKey = some (.string options.keyid)
  iss : claims.get issKey = some (.string options.issuer)
  aud : claims.get audKey = some (.string options.audience)
  sub : claims.get subKey = some (.string options.subject)
  jti : claims.get jtiKey = some (.string options.jwtid)
  exp : now < Double.exactBound → floorSec now + options.expiresIn < Double.exactBound →
    ∃ literal, claims.get expKey = some (.number literal) ∧
      number literal.val = .integer (floorSec now + options.expiresIn : Nat)
  nbf : claims.get nbfKey = none
  own : ∀ member ∈ payload, claims.get member.1 = some member.2

/-- What `verify` has checked of a token when it returns the payload. An `exp` is checked if there
is one, at a time that a double holds exactly. -/
structure Verified {Key Token : Type} (number : Text → JsNumber) (jwt : Jwt Key Token)
    (token : Token) (key : Key) (options : VerifyOptions) (now : Nat) (header payload : Json) :
    Prop where
  decoded : jwt.decode token = some (header, payload)
  alg : ∃ alg ∈ options.algorithms, header.get algKey = some (.string alg)
  signed : jwt.signed token key = true
  iss : payload.get issKey = some (.string options.issuer)
  aud : ∃ aud, payload.get audKey = some aud ∧ Addressed options.audience aud
  unexpired : now < Double.exactBound → ∀ literal exp,
    payload.get expKey = some (.number literal) → number literal.val = .integer exp →
    (floorSec now : Int) < exp

/-- What the documentation of `jsonwebtoken` promises. -/
structure Jwt.Documented {Key Token : Type} (crypto : Crypto Key) (number : Text → JsNumber)
    (jwt : Jwt Key Token) : Prop where
  decode_sign : ∀ payload key options now nonce, (payload.map Prod.fst).Nodup →
    (∀ member ∈ payload, member.1 ∉ registeredClaims) →
    ∃ header claims, jwt.decode (jwt.sign payload key options now nonce) = some (header, claims) ∧
      SignedAs number payload options now header claims
  signed_sign : ∀ payload key options now nonce, crypto.isPrivate key = true →
    crypto.isEs256 key = true → options.algorithm = signingAlg →
    jwt.signed (jwt.sign payload key options now nonce) (crypto.publicKeyOf key) = true
  verify_sound : ∀ token key options now payload, jwt.verify token key options now = .ok payload →
    ∃ header, Verified number jwt token key options now header payload
  verify_complete : ∀ token key options now header payload, now < Double.exactBound →
    Verified number jwt token key options now header payload →
    (∃ literal exp, payload.get expKey = some (.number literal) ∧
      number literal.val = .integer exp) →
    payload.get nbfKey = none → jwt.verify token key options now = .ok payload

/-- Nobody can make a signature without the private key, and a signature made with one key is none
under another. -/
structure Unforgeable {Key Token : Type} (crypto : Crypto Key) (jwt : Jwt Key Token) : Prop where
  made : ∀ token key, jwt.signed token key = true → ∃ privateKey payload options now nonce,
    crypto.publicKeyOf privateKey = key ∧ token = jwt.sign payload privateKey options now nonce
  bound : ∀ payload privateKey options now nonce key,
    jwt.signed (jwt.sign payload privateKey options now nonce) key = true →
      crypto.publicKeyOf privateKey = key

/-! ### `KeyStore` -/

structure KeyStore (Key : Type) where
  kid : Text
  signingKey : Key
  verificationKeys : Text → Option Key

/-- The constructor; `none` is an exception of a key that does not load. -/
def KeyStore.new {Key : Type} (crypto : Crypto Key) (env : Env) : Option (KeyStore Key) :=
  match crypto.loadEs256PrivateKey env.jwtPrivateKey,
    crypto.loadEs256PublicKey env.jwtPublicKey with
  | some signingKey, some publicKey =>
      let verificationKeys := Function.update (fun _ => none) env.jwtKid (some publicKey)
      match env.previous with
      | some (previousKid, previousPublic) =>
          match crypto.loadEs256PublicKey previousPublic with
          | some previousKey =>
              some ⟨env.jwtKid, signingKey,
                Function.update verificationKeys previousKid (some previousKey)⟩
          | none => none
      | none => some ⟨env.jwtKid, signingKey, verificationKeys⟩
  | _, _ => none

/-- A `kid` that is not a text is no key of the map. -/
def KeyStore.verificationKey {Key : Type} (store : KeyStore Key) (kid : Option Json) :
    Except String Key :=
  match (truthy (kid.bind Json.asString)).bind store.verificationKeys with
  | some key => .ok key
  | none => .error "невідомий kid"

/-! ### `TokenService` -/

def roleText : UserRole → Text
  | .customer => ['c', 'u', 's', 't', 'o', 'm', 'e', 'r']
  | .seller => ['s', 'e', 'l', 'l', 'e', 'r']
  | .admin => ['a', 'd', 'm', 'i', 'n']

/-- `USER_ROLES.includes(role)`, and the role it is. -/
def toUserRole (claim : Option Json) : Option UserRole :=
  (claim.bind Json.asString).bind fun text =>
    [UserRole.customer, .seller, .admin].find? fun role => roleText role = text

structure AccessPrincipal where
  userId : Int
  role : UserRole
  jti : Text
  familyId : Text
  expiresAt : JsNumber
  deriving DecidableEq

structure SignedAccessToken (Token : Type) where
  token : Token
  jti : Text
  expiresIn : Nat

section Service

variable {Key Token : Type} (number : Text → JsNumber) (string : JsNumber → Text)
  (jwt : Jwt Key Token) (store : KeyStore Key)

def signOptions (userId : JsNumber) (jti : Text) : SignOptions where
  algorithm := signingAlg
  keyid := store.kid
  issuer := jwtIssuer
  audience := jwtAudience
  subject := string userId
  jwtid := jti
  expiresIn := accessTtlSec

def accessClaims (role : UserRole) (familyId : Text) : List (Text × Json) :=
  [(roleKey, .string (roleText role)), (fidKey, .string familyId)]

/-- `jti` is `randomUUID()`. -/
def signAccess (userId : JsNumber) (role : UserRole) (familyId jti : Text) (now nonce : Nat) :
    SignedAccessToken Token where
  token := jwt.sign (accessClaims role familyId) store.signingKey
    (signOptions string store userId jti)
    now nonce
  jti := jti
  expiresIn := accessTtlSec

/-- The checks on the claims. -/
def toPrincipal (payload : Json) : Except String AccessPrincipal :=
  match toNumber number (payload.get subKey), toUserRole (payload.get roleKey),
    (payload.get fidKey).bind Json.asString, (payload.get jtiKey).bind Json.asString,
    payload.get expKey with
  | none, _, _, _, _ => .error "Cannot convert object to primitive value"
  | some (.integer userId), some role, some familyId, some jti, some (.number literal) =>
      if 0 < userId then .ok ⟨userId, role, jti, familyId, number literal.val⟩
      else .error "некоректні claims токена"
  | _, _, _, _, _ => .error "некоректні claims токена"

def verifyOptions : VerifyOptions := ⟨[signingAlg], jwtIssuer, jwtAudience⟩

def verifyAccess (token : Token) (now : Nat) : Except String AccessPrincipal :=
  let unverified := jwt.decode token
  match store.verificationKey (unverified.bind fun complete => complete.1.get kidKey) with
  | .error message => .error message
  | .ok key =>
      match jwt.verify token key verifyOptions now with
      | .error message => .error message
      | .ok (.string _) => .error "некоректні claims токена"
      | .ok payload => toPrincipal number payload

end Service

/-! ### What the key store registers -/

section Store

variable {Key : Type} {crypto : Crypto Key} {env : Env} {privateKey publicKey : Key}
  {store : KeyStore Key} {kid : Text} {key : Key}

/-- The environment has this key under this `kid`, in one of the two slots. -/
def Registered (crypto : Crypto Key) (env : Env) (kid : Text) (key : Key) : Prop :=
  (kid = env.jwtKid ∧ crypto.loadEs256PublicKey env.jwtPublicKey = some key) ∨
    ∃ text, env.previous = some (kid, text) ∧ crypto.loadEs256PublicKey text = some key

/-- The constructor never fails on an accepted environment. -/
theorem exists_keyStore (hvalid : env.Valid crypto privateKey publicKey) :
    ∃ store, KeyStore.new crypto env = some store := by
  unfold KeyStore.new
  rw [hvalid.loadsPrivate, hvalid.loadsPublic]
  dsimp only
  cases hprevious : env.previous with
  | none => exact ⟨_, rfl⟩
  | some slot =>
      obtain ⟨previousKid, previousPublic⟩ := slot
      obtain ⟨-, previousKey, hkey⟩ := hvalid.previous previousKid previousPublic hprevious
      dsimp only
      rw [hkey]
      exact ⟨_, rfl⟩

/-- The map holds the two keys of the environment, each under its own `kid`. -/
theorem keyStore_spec (hvalid : env.Valid crypto privateKey publicKey)
    (hstore : KeyStore.new crypto env = some store) :
    store.kid = env.jwtKid ∧ store.signingKey = privateKey ∧
      ∀ kid key, store.verificationKeys kid = some key ↔ Registered crypto env kid key := by
  unfold KeyStore.new at hstore
  rw [hvalid.loadsPrivate, hvalid.loadsPublic] at hstore
  dsimp only at hstore
  have hcurrent : ∀ kid key, Function.update (fun _ => none) env.jwtKid (some publicKey) kid =
      some key ↔
      kid = env.jwtKid ∧ crypto.loadEs256PublicKey env.jwtPublicKey = some key := by
    intro kid key
    rw [hvalid.loadsPublic]
    by_cases heq : kid = env.jwtKid
    · rw [heq, Function.update_self]
      exact (and_iff_right rfl).symm
    · rw [Function.update_of_ne heq]
      exact iff_of_false nofun fun hkid => heq hkid.1
  cases hprevious : env.previous with
  | none =>
      rw [hprevious] at hstore
      cases hstore
      refine ⟨rfl, rfl, fun kid key => ?_⟩
      rw [hcurrent, Registered, hprevious]
      simp
  | some slot =>
      obtain ⟨previousKid, previousPublic⟩ := slot
      obtain ⟨hne, previousKey, hkey⟩ := hvalid.previous previousKid previousPublic hprevious
      rw [hprevious] at hstore
      dsimp only at hstore
      rw [hkey] at hstore
      cases hstore
      refine ⟨rfl, rfl, fun kid key => ?_⟩
      dsimp only
      by_cases heq : kid = previousKid
      · -- the two slots have different `kid`s, so the previous key is the only one under its own
        rw [heq, Function.update_self, Registered, hprevious]
        simp only [hne, false_and, false_or, Option.some.injEq, Prod.mk.injEq, true_and]
        constructor
        · rintro rfl
          exact ⟨previousPublic, rfl, hkey⟩
        · rintro ⟨text, rfl, htext⟩
          rw [hkey] at htext
          exact Option.some.inj htext
      · rw [Function.update_of_ne heq, hcurrent, Registered, hprevious]
        simp [Ne.symm heq]

end Store

/-! ### Signing and verifying -/

section Tokens

variable {Key Token : Type} {crypto : Crypto Key} {number : Text → JsNumber}
  {string : JsNumber → Text} {jwt : Jwt Key Token} {signer verifier : KeyStore Key}

theorem toUserRole_roleText (role : UserRole) : toUserRole (some (.string (roleText role))) =
    some role := by
  cases role <;> decide

theorem verificationKey_ok {kid : Text} {key : Key} (hkid : kid ≠ [])
    (hkey : verifier.verificationKeys kid = some key) :
    verifier.verificationKey (some (.string kid)) = .ok key := by
  have hclaim : (some (Json.string kid)).bind Json.asString = some kid := rfl
  have htruthy : truthy (some kid) = some kid := by
    simp [truthy, Option.filter, hkid]
  unfold KeyStore.verificationKey
  rw [hclaim, htruthy, Option.bind_some, hkey]

theorem verificationKey_error {kid : Text} (hkey : verifier.verificationKeys kid = none) :
    verifier.verificationKey (some (.string kid)) = .error "невідомий kid" := by
  have hclaim : (some (Json.string kid)).bind Json.asString = some kid := rfl
  have hnone : (truthy (some kid)).bind verifier.verificationKeys = none := by
    unfold truthy
    cases hfilter : (some kid).filter fun text => !text.isEmpty with
    | none => rfl
    | some text =>
        obtain ⟨heq, -⟩ := Option.filter_eq_some_iff.mp hfilter
        cases heq
        exact hkey
  unfold KeyStore.verificationKey
  rw [hclaim, hnone]

/-- The kid of an accepted token is a text that the store knows. -/
theorem verificationKey_eq_ok {claim : Option Json} {key : Key}
    (hkey : verifier.verificationKey claim = .ok key) :
    ∃ kid, claim = some (.string kid) ∧ verifier.verificationKeys kid = some key := by
  unfold KeyStore.verificationKey at hkey
  split at hkey
  case h_2 => cases hkey
  rename_i found hfound
  cases hkey
  obtain ⟨kid, htruthy, hkey⟩ := Option.bind_eq_some_iff.mp hfound
  obtain ⟨hclaim, -⟩ := Option.filter_eq_some_iff.mp htruthy
  obtain ⟨value, rfl, hstring⟩ := Option.bind_eq_some_iff.mp hclaim
  refine ⟨kid, ?_, hkey⟩
  cases value with
  | string text =>
      cases hstring
      rfl
  | _ => cases hstring

/-- What `signAccess` puts on the wire. -/
theorem decode_signAccess (hjwt : jwt.Documented crypto number) (string : JsNumber → Text)
    (signer : KeyStore Key) (userId : JsNumber) (role : UserRole) (familyId jti : Text)
    (now nonce : Nat) :
    ∃ header claims,
      jwt.decode (signAccess string jwt signer userId role familyId jti now nonce).token =
        some (header, claims) ∧
      SignedAs number (accessClaims role familyId) (signOptions string signer userId jti) now header
        claims := by
  refine hjwt.decode_sign _ _ _ _ _ ?_ ?_
  · simp [accessClaims, roleKey, fidKey]
  · intro member hmember
    simp only [accessClaims, List.mem_cons, List.not_mem_nil, or_false] at hmember
    rcases hmember with rfl | rfl
    · have hrole : roleKey ∉ registeredClaims := by decide
      exact hrole
    · have hfid : fidKey ∉ registeredClaims := by decide
      exact hfid

/-- The claims that the principal was read from. -/
structure Carries (number : Text → JsNumber) (payload : Json) (principal : AccessPrincipal) :
    Prop where
  sub : toNumber number (payload.get subKey) = some (.integer principal.userId)
  positive : 0 < principal.userId
  role : payload.get roleKey = some (.string (roleText principal.role))
  jti : payload.get jtiKey = some (.string principal.jti)
  fid : payload.get fidKey = some (.string principal.familyId)
  exp : ∃ literal, payload.get expKey = some (.number literal) ∧
    number literal.val = principal.expiresAt

theorem bind_asString_eq_some {claim : Option Json} {text : Text}
    (hclaim : claim.bind Json.asString = some text) : claim = some (.string text) := by
  obtain ⟨value, rfl, hvalue⟩ := Option.bind_eq_some_iff.mp hclaim
  cases value with
  | string found =>
      cases hvalue
      rfl
  | _ => cases hvalue

theorem toUserRole_eq_some {claim : Option Json} {role : UserRole}
    (hrole : toUserRole claim = some role) :
    claim = some (.string (roleText role)) := by
  obtain ⟨text, hclaim, hfind⟩ := Option.bind_eq_some_iff.mp hrole
  have htext : roleText role = text := by simpa using List.find?_some hfind
  rw [htext]
  exact bind_asString_eq_some hclaim

/-- The checks on the claims pass exactly for a payload that carries the principal. -/
theorem toPrincipal_iff {payload : Json} {principal : AccessPrincipal} :
    toPrincipal number payload = .ok principal ↔ Carries number payload principal := by
  constructor
  · intro hok
    unfold toPrincipal at hok
    split at hok
    case h_1 => cases hok
    case h_3 => cases hok
    rename_i userId role familyId jti literal hsub hrole hfid hjti hexp
    split at hok
    case isFalse => cases hok
    rename_i hpositive
    cases hok
    exact ⟨hsub, hpositive, toUserRole_eq_some hrole, bind_asString_eq_some hjti,
      bind_asString_eq_some hfid, literal, hexp, rfl⟩
  · rintro ⟨hsub, hpositive, hrole, hjti, hfid, literal, hexp, hexpires⟩
    unfold toPrincipal
    rw [hsub, hrole, hjti, hfid, hexp, toUserRole_roleText]
    simp only [Option.bind_some, Json.asString, if_pos hpositive, hexpires]

/-- Whatever the service accepts has passed every check. -/
theorem verifyAccess_sound (hjwt : jwt.Documented crypto number) {token : Token} {now : Nat}
    {principal : AccessPrincipal}
    (hok : verifyAccess number jwt verifier token now = .ok principal) :
    ∃ kid key header payload, verifier.verificationKeys kid = some key ∧
      header.get kidKey = some (.string kid) ∧
      Verified number jwt token key verifyOptions now header payload ∧
      Carries number payload principal := by
  unfold verifyAccess at hok
  dsimp only at hok
  split at hok
  · cases hok
  rename_i key hkey
  obtain ⟨kid, hclaim, hfound⟩ := verificationKey_eq_ok hkey
  split at hok
  · cases hok
  · cases hok
  rename_i payload hnot hverify
  obtain ⟨header, hverified⟩ := hjwt.verify_sound _ _ _ _ _ hverify
  rw [hverified.decoded] at hclaim
  exact ⟨kid, key, header, payload, hfound, hclaim, hverified, toPrincipal_iff.mp hok⟩

/-- The sum for the `exp` of an access token is exact. -/
theorem exp_lt_exactBound {signedAt : Nat} (hexact : signedAt < Double.exactBound) :
    floorSec signedAt + accessTtlSec < Double.exactBound := by
  unfold Double.exactBound at hexact ⊢
  unfold floorSec accessTtlSec
  omega

section Signed

variable (hjwt : jwt.Documented crypto number) (userId : JsNumber) (role : UserRole)
  (familyId jti : Text) (signedAt nonce now : Nat)
include hjwt

/-- A token whose `kid` the store does not know. -/
theorem verifyAccess_unknown (hkey : verifier.verificationKeys signer.kid = none) :
    verifyAccess number jwt verifier
      (signAccess string jwt signer userId role familyId jti signedAt nonce).token now =
        .error "невідомий kid" := by
  obtain ⟨header, claims, hdecode, hsigned⟩ :=
    decode_signAccess hjwt string signer userId role familyId jti signedAt nonce
  unfold verifyAccess
  rw [hdecode]
  dsimp only [Option.bind_some]
  rw [hsigned.kid]
  dsimp only [signOptions]
  rw [verificationKey_error hkey]

theorem verifyAccess_expired (hsignedAt : signedAt < Double.exactBound)
    (hnow : now < Double.exactBound) (hexpired : floorSec signedAt + accessTtlSec ≤ floorSec now) :
    ∃ message, verifyAccess number jwt verifier
      (signAccess string jwt signer userId role familyId jti signedAt nonce).token now =
        .error message := by
  cases hresult : verifyAccess number jwt verifier
      (signAccess string jwt signer userId role familyId jti signedAt nonce).token now with
  | error message => exact ⟨message, rfl⟩
  | ok principal =>
      obtain ⟨header, claims, hdecode, hsigned⟩ :=
        decode_signAccess hjwt string signer userId role familyId jti signedAt nonce
      obtain ⟨_, _, header', payload, -, -, hverified, -⟩ := verifyAccess_sound hjwt hresult
      have hsame := hverified.decoded
      rw [hdecode] at hsame
      cases hsame
      obtain ⟨literal, hexp, hvalue⟩ := hsigned.exp hsignedAt (exp_lt_exactBound hsignedAt)
      have hlive := hverified.unexpired hnow literal _ hexp hvalue
      dsimp only [signOptions] at hlive
      omega

/-- Until it expires, a token is accepted wherever its `kid` has the public half of the key that
signed it, and it says what was signed. -/
theorem verifyAccess_live {userId : Int}
    (hstring : number (string (.integer userId)) = .integer userId) (hpositive : 0 < userId)
    (hprivate : crypto.isPrivate signer.signingKey = true)
    (hes256 : crypto.isEs256 signer.signingKey = true) (hkid : signer.kid ≠ [])
    (hkey : verifier.verificationKeys signer.kid = some (crypto.publicKeyOf signer.signingKey))
    (hsignedAt : signedAt < Double.exactBound) (hnow : now < Double.exactBound)
    (hlive : floorSec now < floorSec signedAt + accessTtlSec) :
    verifyAccess number jwt verifier
      (signAccess string jwt signer (.integer userId) role familyId jti signedAt nonce).token now =
        .ok ⟨userId, role, jti, familyId, .integer (floorSec signedAt + accessTtlSec : Nat)⟩ := by
  obtain ⟨header, claims, hdecode, hsigned⟩ :=
    decode_signAccess hjwt string signer (.integer userId) role familyId jti signedAt nonce
  obtain ⟨literal, hexp, hvalue⟩ := hsigned.exp hsignedAt (exp_lt_exactBound hsignedAt)
  have hverified : Verified number jwt
      (signAccess string jwt signer (.integer userId) role familyId jti signedAt nonce).token
      (crypto.publicKeyOf signer.signingKey) verifyOptions now header claims := by
    refine ⟨hdecode, ⟨signingAlg, List.mem_singleton.mpr rfl, hsigned.alg⟩, ?_, hsigned.iss,
      ⟨_, hsigned.aud, rfl⟩, ?_⟩
    · exact hjwt.signed_sign _ _ _ _ _ hprivate hes256 rfl
    · intro _ literal' exp hexp' hvalue'
      rw [hexp] at hexp'
      cases hexp'
      rw [hvalue] at hvalue'
      cases hvalue'
      exact Int.ofNat_lt.mpr hlive
  have hverify :=
    hjwt.verify_complete _ _ _ _ _ _ hnow hverified ⟨literal, _, hexp, hvalue⟩ hsigned.nbf
  have hrole : claims.get roleKey = some (.string (roleText role)) :=
    hsigned.own _ List.mem_cons_self
  have hfid : claims.get fidKey = some (.string familyId) :=
    hsigned.own _ (List.mem_cons_of_mem _ List.mem_cons_self)
  have hsub : toNumber number (claims.get subKey) = some (.integer userId) := by
    rw [hsigned.sub]
    exact congrArg some hstring
  have hprincipal : toPrincipal number claims =
      .ok ⟨userId, role, jti, familyId, .integer (floorSec signedAt + accessTtlSec : Nat)⟩ :=
    toPrincipal_iff.mpr ⟨hsub, hpositive, hrole, hsigned.jti, hfid, literal, hexp, hvalue⟩
  unfold verifyAccess
  rw [hdecode]
  dsimp only [Option.bind_some]
  rw [hsigned.kid]
  dsimp only [signOptions]
  rw [verificationKey_ok hkid hkey]
  dsimp only
  rw [hverify]
  cases claims with
  | string text => cases hrole
  | _ => exact hprincipal

end Signed

end Tokens

end Marketplace.TokenService
