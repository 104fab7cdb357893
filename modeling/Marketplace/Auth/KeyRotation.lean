import Marketplace.Auth.TokenService

/-!
# Rotating the signing key

A history of configurations: each installs a new pair and keeps the old public key in the previous
slot, or clears that slot. A `kid` means one key in the whole history, which is why a token is
accepted as long as its `kid` is in one of the two slots and no longer.
-/

namespace Marketplace.TokenService

open Checkout (JsNumber)
open Config (Crypto Env validateAuthEnv valid_of_validateAuthEnv truthy)

variable {Key Token : Type} {crypto : Crypto Key} {number : Text → JsNumber}
  {string : JsNumber → Text} {jwt : Jwt Key Token} {history : List Env} {env signed : Env}
  {signer verifier : KeyStore Key}

/-- The configurations that were deployed, the newest first. That the pair itself is fresh is not
needed. -/
inductive Rotation (crypto : Crypto Key) : List Env → Prop
  | first (env : Env) (haccepted : validateAuthEnv crypto env = .ok env) : Rotation crypto [env]
  | install (current next : Env) (past : List Env) (hpast : Rotation crypto (current :: past))
      (haccepted : validateAuthEnv crypto next = .ok next)
      (hfresh : ∀ env ∈ current :: past, env.jwtKid ≠ next.jwtKid ∧
        env.jwtPreviousKid ≠ some next.jwtKid)
      (hkid : next.jwtPreviousKid = some current.jwtKid)
      (hkey : next.jwtPreviousPublicKey = some current.jwtPublicKey) :
      Rotation crypto (next :: current :: past)
  | clear (current next : Env) (past : List Env) (hpast : Rotation crypto (current :: past))
      (haccepted : validateAuthEnv crypto next = .ok next) (hkid : next.jwtKid = current.jwtKid)
      (hprivate : next.jwtPrivateKey = current.jwtPrivateKey)
      (hpublic : next.jwtPublicKey = current.jwtPublicKey)
      (hpreviousKid : next.jwtPreviousKid = none)
      (hpreviousKey : next.jwtPreviousPublicKey = none) : Rotation crypto (next :: current :: past)

theorem Rotation.accepted (hrotation : Rotation crypto history) :
    ∀ env ∈ history, validateAuthEnv crypto env = .ok env := by
  induction hrotation with
  | first env haccepted =>
      intro other hother
      rw [List.mem_singleton.mp hother]
      exact haccepted
  | install current next past hpast haccepted hfresh hkid hkey ih =>
      intro env henv
      rcases List.mem_cons.mp henv with rfl | henv
      · exact haccepted
      · exact ih env henv
  | clear current next past hpast haccepted hkid hprivate hpublic hpreviousKid hpreviousKey ih =>
      intro env henv
      rcases List.mem_cons.mp henv with rfl | henv
      · exact haccepted
      · exact ih env henv

theorem previous_eq_some {kid text : Text} (hprevious : env.previous = some (kid, text)) :
    env.jwtPreviousKid = some kid ∧ env.jwtPreviousPublicKey = some text := by
  unfold Env.previous at hprevious
  split at hprevious
  case h_2 => cases hprevious
  rename_i hkid htext
  cases hprevious
  exact ⟨(Option.filter_eq_some_iff.mp hkid).1, (Option.filter_eq_some_iff.mp htext).1⟩

/-- Wherever the `kid` of `left` appears in `right`, it stands for the public key of `left`. -/
def SameKey (left right : Env) : Prop :=
  (right.jwtKid = left.jwtKid → right.jwtPublicKey = left.jwtPublicKey) ∧
    ∀ text, right.previous = some (left.jwtKid, text) → text = left.jwtPublicKey

theorem Rotation.sameKey (hrotation : Rotation crypto history) :
    ∀ left ∈ history, ∀ right ∈ history, SameKey left right := by
  induction hrotation with
  | first env haccepted =>
      intro left hleft right hright
      rw [List.mem_singleton.mp hleft, List.mem_singleton.mp hright]
      obtain ⟨_, _, hvalid⟩ := valid_of_validateAuthEnv haccepted
      exact ⟨fun _ => rfl, fun text hprevious => absurd rfl (hvalid.previous _ text hprevious).1⟩
  | install current next past hpast haccepted hfresh hkid hkey ih =>
      obtain ⟨_, _, hvalid⟩ := valid_of_validateAuthEnv haccepted
      intro left hleft right hright
      rcases List.mem_cons.mp hleft with rfl | hleftPast
      · rcases List.mem_cons.mp hright with rfl | hrightPast
        · exact ⟨fun _ => rfl,
            fun text hprevious => absurd rfl (hvalid.previous _ text hprevious).1⟩
        · obtain ⟨hne, hnePrevious⟩ := hfresh right hrightPast
          exact ⟨fun heq => absurd heq hne,
            fun text hprevious => absurd (previous_eq_some hprevious).1 hnePrevious⟩
      · rcases List.mem_cons.mp hright with rfl | hrightPast
        · refine ⟨fun heq => absurd heq.symm (hfresh left hleftPast).1, fun text hprevious => ?_⟩
          -- the previous slot is the current key of the configuration before
          obtain ⟨hkid', hkey'⟩ := previous_eq_some hprevious
          rw [hkid] at hkid'
          rw [hkey] at hkey'
          cases hkey'
          exact (ih left hleftPast current List.mem_cons_self).1 (Option.some.inj hkid')
        · exact ih left hleftPast right hrightPast
  | clear current next past hpast haccepted hkid hprivate hpublic hpreviousKid hpreviousKey ih =>
      have hnone : ∀ slot, next.previous ≠ some slot := by
        intro slot hprevious
        have hkid' := (previous_eq_some hprevious).1
        rw [hpreviousKid] at hkid'
        cases hkid'
      intro left hleft right hright
      rcases List.mem_cons.mp hleft with rfl | hleftPast
      · rcases List.mem_cons.mp hright with rfl | hrightPast
        · exact ⟨fun _ => rfl, fun text hprevious => absurd hprevious (hnone _)⟩
        · rw [SameKey, hkid, hpublic]
          exact ih current List.mem_cons_self right hrightPast
      · rcases List.mem_cons.mp hright with rfl | hrightPast
        · refine ⟨fun heq => ?_, fun text hprevious => absurd hprevious (hnone _)⟩
          rw [hpublic]
          exact (ih left hleftPast current List.mem_cons_self).1 (hkid.symm.trans heq)
        · exact ih left hleftPast right hrightPast

/-! ### What is assumed -/

/-- The packages do what they document, `Number` reads back the text of every double, signatures
cannot be forged, and of two keys of a deployed configuration equal fingerprints mean equal public
keys. -/
structure Assumed (crypto : Crypto Key) (number : Text → JsNumber) (string : JsNumber → Text)
    (jwt : Jwt Key Token) (history : List Env) : Prop where
  keys : crypto.Documented
  tokens : jwt.Documented crypto number
  numbers : ∀ value, Double.IsDouble value → number (string (.integer value)) = .integer value
  unforgeable : Unforgeable crypto jwt
  fingerprints : ∀ env ∈ history, ∀ privateKey publicKey,
    crypto.loadEs256PrivateKey env.jwtPrivateKey = some privateKey →
    crypto.loadEs256PublicKey env.jwtPublicKey = some publicKey →
    crypto.publicKeyFingerprint privateKey = crypto.publicKeyFingerprint publicKey →
    crypto.publicHalf privateKey = crypto.publicHalf publicKey

/-- The `kid` is the current or the previous one. -/
def HasKid (env : Env) (kid : Text) : Prop :=
  kid = env.jwtKid ∨ ∃ text, env.previous = some (kid, text)

/-- Signed by the holder of the private half of `key`, and by no other key. -/
def SignedOnlyBy (crypto : Crypto Key) (jwt : Jwt Key Token) (token : Token) (key : Key) : Prop :=
  (∃ privateKey payload options now nonce, crypto.publicKeyOf privateKey = key ∧
    token = jwt.sign payload privateKey options now nonce) ∧
  ∀ privateKey payload options now nonce, token = jwt.sign payload privateKey options now nonce →
    crypto.publicKeyOf privateKey = key

/-- The header names ES256 and a `kid` of the environment, the signature is by the key registered
under it, issuer, audience and required claims are there, and the principal is what they say. -/
def Genuine (crypto : Crypto Key) (number : Text → JsNumber) (jwt : Jwt Key Token) (env : Env)
    (token : Token) (now : Nat) (principal : AccessPrincipal) : Prop :=
  ∃ kid key header payload, HasKid env kid ∧ Registered crypto env kid key ∧
    header.get kidKey = some (.string kid) ∧
    Verified number jwt token key verifyOptions now header payload ∧
    Carries number payload principal ∧ SignedOnlyBy crypto jwt token key

theorem hasKid_of_registered {kid : Text} {key : Key}
    (hregistered : Registered crypto env kid key) :
    HasKid env kid := by
  rcases hregistered with ⟨hkid, -⟩ | ⟨text, hprevious, -⟩
  · exact .inl hkid
  · exact .inr ⟨text, hprevious⟩

/-- In the whole history the `kid` of a configuration is registered with one key: the public half of
the private key that signs under it. -/
theorem registered_iff (hassumed : Assumed crypto number string jwt history)
    (hrotation : Rotation crypto history) (hsigned : signed ∈ history) (henv : env ∈ history)
    (hsigner : KeyStore.new crypto signed = some signer) {key : Key} :
    Registered crypto env signed.jwtKid key ↔
      HasKid env signed.jwtKid ∧ key = crypto.publicKeyOf signer.signingKey := by
  obtain ⟨privateKey, publicKey, hvalid⟩ :=
    valid_of_validateAuthEnv (hrotation.accepted signed hsigned)
  have hsigningKey := (keyStore_spec hvalid hsigner).2.1
  have hpublic : publicKey = crypto.publicKeyOf signer.signingKey := by
    have hhalves := hassumed.fingerprints signed hsigned privateKey publicKey hvalid.loadsPrivate
      hvalid.loadsPublic hvalid.fingerprint
    rw [Crypto.publicHalf_of_loadEs256PublicKey hassumed.keys hvalid.loadsPublic, Crypto.publicHalf,
      if_pos (Crypto.loadEs256PrivateKey_eq_some hassumed.keys hvalid.loadsPrivate).1] at hhalves
    rw [hsigningKey]
    exact hhalves.symm
  obtain ⟨hcurrent, hprevious⟩ := hrotation.sameKey signed hsigned env henv
  constructor
  · intro hregistered
    refine ⟨hasKid_of_registered hregistered, ?_⟩
    rcases hregistered with ⟨hkid, hload⟩ | ⟨text, hslot, hload⟩
    · rw [hcurrent hkid.symm, hvalid.loadsPublic] at hload
      rw [← hpublic]
      exact (Option.some.inj hload).symm
    · rw [hprevious text hslot, hvalid.loadsPublic] at hload
      rw [← hpublic]
      exact (Option.some.inj hload).symm
  · rintro ⟨hkid | ⟨text, hslot⟩, rfl⟩
    · refine .inl ⟨hkid, ?_⟩
      rw [hcurrent hkid.symm, hvalid.loadsPublic, hpublic]
    · refine .inr ⟨text, hslot, ?_⟩
      rw [hprevious text hslot, hvalid.loadsPublic, hpublic]

/-- A token signed under one configuration, presented under another. -/
theorem verifyAccess_signAccess (hassumed : Assumed crypto number string jwt history)
    (hrotation : Rotation crypto history) (hsigned : signed ∈ history) (henv : env ∈ history)
    (hsigner : KeyStore.new crypto signed = some signer)
    (hverifier : KeyStore.new crypto env = some verifier) {userId : Int}
    (hdouble : Double.IsDouble userId) (hpositive : 0 < userId) (role : UserRole)
    (familyId jti : Text) {signedAt now : Nat} (nonce : Nat)
    (hsignedAt : signedAt < Double.exactBound) (hnow : now < Double.exactBound) :
    let result := verifyAccess number jwt verifier
      (signAccess string jwt signer (.integer userId) role familyId jti signedAt nonce).token now
    (HasKid env signed.jwtKid → floorSec now < floorSec signedAt + accessTtlSec →
      result = .ok ⟨userId, role, jti, familyId,
        .integer (floorSec signedAt + accessTtlSec : Nat)⟩) ∧
    (floorSec signedAt + accessTtlSec ≤ floorSec now → ∃ message, result = .error message) ∧
    (¬ HasKid env signed.jwtKid → result = .error "невідомий kid") := by
  obtain ⟨_, _, hvalid⟩ := valid_of_validateAuthEnv (hrotation.accepted signed hsigned)
  obtain ⟨_, _, hvalid'⟩ := valid_of_validateAuthEnv (hrotation.accepted env henv)
  obtain ⟨hkid, hsigningKey, -⟩ := keyStore_spec hvalid hsigner
  obtain ⟨-, -, hkeys⟩ := keyStore_spec hvalid' hverifier
  have hregistered : ∀ key, verifier.verificationKeys signer.kid = some key ↔
      HasKid env signed.jwtKid ∧ key = crypto.publicKeyOf signer.signingKey := by
    intro key
    rw [hkeys, hkid]
    exact registered_iff hassumed hrotation hsigned henv hsigner
  dsimp only
  refine ⟨fun hhas hlive => ?_, fun hexpired => ?_, fun hnot => ?_⟩
  · obtain ⟨hprivate, hes256⟩ :=
      Crypto.loadEs256PrivateKey_eq_some hassumed.keys hvalid.loadsPrivate
    rw [← hsigningKey] at hprivate hes256
    refine verifyAccess_live hassumed.tokens role familyId jti signedAt nonce now
      (hassumed.numbers userId hdouble) hpositive hprivate hes256 ?_
      ((hregistered _).mpr ⟨hhas, rfl⟩) hsignedAt hnow hlive
    rw [hkid]
    exact signed.jwtKid_ne_nil
  · exact verifyAccess_expired hassumed.tokens _ role familyId jti signedAt nonce now hsignedAt hnow
      hexpired
  · refine verifyAccess_unknown hassumed.tokens _ role familyId jti signedAt nonce now ?_
    cases hkey : verifier.verificationKeys signer.kid with
    | none => rfl
    | some key => exact absurd ((hregistered key).mp hkey).1 hnot

/-- Whatever a deployed configuration accepts is genuine. -/
theorem genuine_of_verifyAccess (hassumed : Assumed crypto number string jwt history)
    (hrotation : Rotation crypto history) (henv : env ∈ history)
    (hverifier : KeyStore.new crypto env = some verifier) {token : Token} {now : Nat}
    {principal : AccessPrincipal}
    (hok : verifyAccess number jwt verifier token now = .ok principal) :
    Genuine crypto number jwt env token now principal := by
  obtain ⟨_, _, hvalid⟩ := valid_of_validateAuthEnv (hrotation.accepted env henv)
  obtain ⟨-, -, hkeys⟩ := keyStore_spec hvalid hverifier
  obtain ⟨kid, key, header, payload, hkey, hkid, hverified, hcarries⟩ :=
    verifyAccess_sound hassumed.tokens hok
  have hregistered := (hkeys kid key).mp hkey
  refine ⟨kid, key, header, payload, hasKid_of_registered hregistered, hregistered, hkid, hverified,
    hcarries, hassumed.unforgeable.made token key hverified.signed, ?_⟩
  rintro privateKey claims options signedAt nonce rfl
  exact hassumed.unforgeable.bound _ _ _ _ _ _ hverified.signed

/-- Rotation with overlap: no configuration fails to start, a token is accepted until it expires
exactly where its `kid` is in one of the slots, and nothing else is accepted. -/
theorem rotation_overlap (hassumed : Assumed crypto number string jwt history)
    (hrotation : Rotation crypto history) :
    (∀ env ∈ history, ∃ store, KeyStore.new crypto env = some store) ∧
    (∀ signed ∈ history, ∀ signer, KeyStore.new crypto signed = some signer →
      ∀ env ∈ history, ∀ verifier, KeyStore.new crypto env = some verifier →
      ∀ userId role familyId jti signedAt nonce now, Double.IsDouble userId → 0 < userId →
        signedAt < Double.exactBound → now < Double.exactBound →
        let result := verifyAccess number jwt verifier
          (signAccess string jwt signer (.integer userId) role familyId jti signedAt
            nonce).token now
        (HasKid env signed.jwtKid → floorSec now < floorSec signedAt + accessTtlSec → result =
          .ok ⟨userId, role, jti, familyId, .integer (floorSec signedAt + accessTtlSec : Nat)⟩) ∧
        (floorSec signedAt + accessTtlSec ≤ floorSec now → ∃ message, result = .error message) ∧
        (¬ HasKid env signed.jwtKid → result = .error "невідомий kid")) ∧
    ∀ env ∈ history, ∀ verifier, KeyStore.new crypto env = some verifier → ∀ token now principal,
      verifyAccess number jwt verifier token now = .ok principal →
        Genuine crypto number jwt env token now principal := by
  refine ⟨fun env henv => ?_, ?_, ?_⟩
  · obtain ⟨_, _, hvalid⟩ := valid_of_validateAuthEnv (hrotation.accepted env henv)
    exact exists_keyStore hvalid
  · intro signed hsigned signer hsigner env henv verifier hverifier userId role familyId
      jti signedAt
      nonce now hdouble hpositive hsignedAt hnow
    exact verifyAccess_signAccess hassumed hrotation hsigned henv hsigner hverifier
      hdouble hpositive
      role familyId jti nonce hsignedAt hnow
  · intro env henv verifier hverifier token now principal hok
    exact genuine_of_verifyAccess hassumed hrotation henv hverifier hok

/-! ### The tokens of the other modules -/

/-- Where the `kid` is known, a token tells what its claims alone tell. -/
theorem verifyAccess_refines (hassumed : Assumed crypto number string jwt history)
    (hrotation : Rotation crypto history) (hsigned : signed ∈ history) (henv : env ∈ history)
    (hsigner : KeyStore.new crypto signed = some signer)
    (hverifier : KeyStore.new crypto env = some verifier) (hkid : HasKid env signed.jwtKid)
    (uuid : Nat → Text) {userId : Int} (hdouble : Double.IsDouble userId) (hpositive : 0 < userId)
    (role : UserRole) (familyId jti nonce : Nat) {signedAt now : Nat}
    (hsignedAt : signedAt < Double.exactBound) (hnow : now < Double.exactBound) :
    (verifyAccess number jwt verifier (signAccess string jwt signer (.integer userId) role
        (uuid familyId) (uuid jti) signedAt nonce).token now).toOption =
      (Marketplace.verifyAccess now (Marketplace.signAccess userId role familyId jti signedAt)).map
        fun principal => ⟨principal.userId, principal.role, uuid principal.jti,
          uuid principal.familyId, .integer principal.expiresAt⟩ := by
  obtain ⟨hlive, hexpired, -⟩ := verifyAccess_signAccess hassumed hrotation hsigned henv hsigner
    hverifier hdouble hpositive role (uuid familyId) (uuid jti) nonce hsignedAt hnow
  unfold Marketplace.verifyAccess Marketplace.signAccess
  dsimp only
  rcases Nat.lt_or_ge (floorSec now) (floorSec signedAt + accessTtlSec) with hlt | hge
  · rw [hlive hkid hlt, if_neg]
    · rfl
    · rintro (hle | hle)
      · exact absurd hlt (Nat.not_lt.mpr hle)
      · exact absurd hpositive (Int.not_lt.mpr hle)
  · obtain ⟨message, herror⟩ := hexpired hge
    rw [herror, if_pos (.inl hge)]
    rfl

/-- If the service signs nothing but access tokens with a key, those are the only tokens that are
accepted under its `kid`, and each names the principal it was signed for. -/
theorem signAccess_of_verifyAccess (hassumed : Assumed crypto number string jwt history)
    (hrotation : Rotation crypto history) (hsigned : signed ∈ history) (henv : env ∈ history)
    (hsigner : KeyStore.new crypto signed = some signer)
    (hverifier : KeyStore.new crypto env = some verifier)
    (honly : ∀ token, jwt.signed token (crypto.publicKeyOf signer.signingKey) = true →
      ∃ userId role familyId jti signedAt nonce, Double.IsDouble userId ∧ 0 < userId ∧
        signedAt < Double.exactBound ∧
          token = (signAccess string jwt signer (.integer userId) role familyId jti
            signedAt nonce).token)
    {token : Token} {now : Nat} {principal : AccessPrincipal} {header payload : Json}
    (hdecode : jwt.decode token = some (header, payload))
    (hkid : header.get kidKey = some (.string signed.jwtKid)) (hnow : now < Double.exactBound)
    (hok : verifyAccess number jwt verifier token now = .ok principal) :
    ∃ signedAt nonce, floorSec now < floorSec signedAt + accessTtlSec ∧
      principal.expiresAt = .integer (floorSec signedAt + accessTtlSec : Nat) ∧
      token = (signAccess string jwt signer (.integer principal.userId) principal.role
        principal.familyId principal.jti signedAt nonce).token := by
  obtain ⟨kid, key, header', payload', -, hregistered, hkid', hverified, -, -⟩ :=
    genuine_of_verifyAccess hassumed hrotation henv hverifier hok
  have hsame := hverified.decoded
  rw [hdecode] at hsame
  cases hsame
  rw [hkid] at hkid'
  cases hkid'
  obtain ⟨hhas, rfl⟩ := (registered_iff hassumed hrotation hsigned henv hsigner).mp hregistered
  obtain ⟨userId, role, familyId, jti, signedAt, nonce, hdouble, hpositive, hsignedAt, rfl⟩ :=
    honly token hverified.signed
  obtain ⟨hlive, hexpired, -⟩ := verifyAccess_signAccess hassumed hrotation hsigned henv hsigner
    hverifier hdouble hpositive role familyId jti nonce hsignedAt hnow
  rcases Nat.lt_or_ge (floorSec now) (floorSec signedAt + accessTtlSec) with hlt | hge
  · have hprincipal := hlive hhas hlt
    rw [hok] at hprincipal
    cases hprincipal
    exact ⟨signedAt, nonce, hlt, rfl, rfl⟩
  · obtain ⟨message, herror⟩ := hexpired hge
    rw [hok] at herror
    cases herror

/-! ### A sample -/

/-- A private key and its public half are two keys with one number. -/
structure SampleKey where
  id : Nat
  isPrivate : Bool
  deriving DecidableEq

def sampleCrypto : Crypto SampleKey where
  createPrivateKey pem := some ⟨pem.length, true⟩
  createPublicKey pem := some ⟨pem.length, false⟩
  publicKeyOf key := ⟨key.id, false⟩
  isPrivate := SampleKey.isPrivate
  asymmetricKeyType _ := "ec"
  namedCurve _ := some "prime256v1"
  exportSpki key := [Base64.byte key.id]
  sha256Hex bytes := bytes.map fun byte => Char.ofNat (65 + byte.val)

/-- A token is what was signed, by whom. -/
structure SampleToken where
  payload : List (Text × Json)
  key : SampleKey
  options : SignOptions
  signedAt : Nat
  nonce : Nat

def SampleToken.header (token : SampleToken) : Json :=
  .object [(algKey, .string token.options.algorithm), (kidKey, .string token.options.keyid)]

def SampleToken.registered (token : SampleToken) : List (Text × Json) :=
  [(issKey, .string token.options.issuer), (audKey, .string token.options.audience),
    (subKey, .string token.options.subject), (jtiKey, .string token.options.jwtid),
    (expKey, .number (.ofNat (floorSec token.signedAt + token.options.expiresIn)))]

def SampleToken.claims (token : SampleToken) : Json := .object (token.payload ++ token.registered)

def SampleToken.isSigned (token : SampleToken) (key : SampleKey) : Bool :=
  token.options.algorithm = signingAlg && key = sampleCrypto.publicKeyOf token.key

def sampleJwt : Jwt SampleKey SampleToken where
  sign := SampleToken.mk
  decode token := some (token.header, token.claims)
  signed := SampleToken.isSigned
  verify token key options now :=
    if token.options.algorithm ∈ options.algorithms ∧ token.isSigned key = true ∧
        token.options.issuer = options.issuer ∧ token.options.audience = options.audience ∧
        floorSec now < floorSec token.signedAt + token.options.expiresIn then .ok token.claims
    else .error "jwt invalid"

variable (token : SampleToken)

theorem get_registered : token.claims.get issKey = some (.string token.options.issuer) ∧
    token.claims.get audKey = some (.string token.options.audience) ∧
    token.claims.get subKey = some (.string token.options.subject) ∧
    token.claims.get jtiKey = some (.string token.options.jwtid) ∧
    token.claims.get expKey =
      some (.number (.ofNat (floorSec token.signedAt + token.options.expiresIn))) := by
  simp [SampleToken.claims, SampleToken.registered, Json.get, issKey, audKey, subKey,
    jtiKey, expKey]

variable {token} (hnodup : (token.payload.map Prod.fst).Nodup)
  (hown : ∀ member ∈ token.payload, member.1 ∉ registeredClaims)

theorem get_claims {key : Text} (hkey : ∀ member ∈ token.registered, member.1 ≠ key) :
    token.claims.get key =
      (token.payload.reverse.find? fun member => member.1 = key).map Prod.snd := by
  have hnone : token.registered.reverse.find? (fun member => member.1 = key) = none := by
    rw [List.find?_eq_none]
    intro member hmember
    simpa using hkey member (List.mem_reverse.mp hmember)
  rw [SampleToken.claims, Json.get, List.reverse_append, List.find?_append, hnone, Option.none_or]

include hown

theorem get_nbf : token.claims.get nbfKey = none := by
  have hkey : ∀ member ∈ token.registered, member.1 ≠ nbfKey := by
    simp [SampleToken.registered, issKey, audKey, subKey, jtiKey, expKey, nbfKey]
  rw [get_claims hkey, Option.map_eq_none_iff, List.find?_eq_none]
  intro member hmember heq
  refine hown member (List.mem_reverse.mp hmember) ?_
  rw [of_decide_eq_true heq]
  decide

include hnodup

theorem get_own {member : Text × Json} (hmember : member ∈ token.payload) :
    token.claims.get member.1 = some member.2 := by
  have hkey : ∀ other ∈ token.registered, other.1 ≠ member.1 := by
    intro other hother heq
    refine hown member hmember ?_
    have hlisted : other.1 ∈ [issKey, audKey, subKey, jtiKey, expKey] :=
      List.mem_map_of_mem hother
    have hsubset : ∀ name ∈ [issKey, audKey, subKey, jtiKey, expKey], name ∈ registeredClaims := by
      decide
    exact heq ▸ hsubset other.1 hlisted
  rw [get_claims hkey]
  cases hfind : token.payload.reverse.find? fun other => other.1 = member.1 with
  | none =>
      have := List.find?_eq_none.mp hfind member (List.mem_reverse.mpr hmember)
      simp at this
  | some found =>
      have hsame : found.1 = member.1 := by simpa using List.find?_some hfind
      have hfound := List.mem_reverse.mp (List.mem_of_find?_eq_some hfind)
      rw [List.inj_on_of_nodup_map hnodup hfound hmember hsame]
      rfl

omit hnodup hown

theorem readDecimal_ofNat (value : Nat) :
    readDecimal (JsonNumber.ofNat value).val = .integer value :=
  readDecimal_decimal value

theorem documented_sampleJwt : sampleJwt.Documented sampleCrypto readDecimal where
  decode_sign payload key options now nonce hnodup hown := by
    obtain ⟨hiss, haud, hsub, hjti, hexp⟩ := get_registered ⟨payload, key, options, now, nonce⟩
    refine ⟨_, _, rfl, rfl, rfl, hiss, haud, hsub, hjti, fun _ _ => ⟨_, hexp, ?_⟩, get_nbf hown,
      fun member hmember => get_own hnodup hown hmember⟩
    exact readDecimal_ofNat _
  signed_sign payload key options now nonce _ _ halg := by
    simp [sampleJwt, SampleToken.isSigned, halg]
  verify_sound token key options now payload hverify := by
    obtain ⟨hiss, haud, -, -, hexp⟩ := get_registered token
    simp only [sampleJwt] at hverify
    split at hverify
    case isFalse => cases hverify
    rename_i hchecked
    obtain ⟨halg, hsigned, hissuer, haudience, hlive⟩ := hchecked
    cases hverify
    refine ⟨token.header, rfl, ⟨_, halg, rfl⟩, hsigned, hissuer ▸ hiss, ⟨_, haud, haudience⟩, ?_⟩
    intro _ literal exp hliteral hvalue
    rw [hexp] at hliteral
    cases hliteral
    rw [readDecimal_ofNat] at hvalue
    cases hvalue
    exact Int.ofNat_lt.mpr hlive
  verify_complete token key options now header payload hnow hverified _ _ := by
    obtain ⟨hiss, haud, -, -, hexp⟩ := get_registered token
    obtain ⟨hdecoded, ⟨alg, halg, halg'⟩, hsigned, hiss', ⟨aud, haud', haddressed⟩, hunexpired⟩ :=
      hverified
    cases hdecoded
    rw [haud] at haud'
    cases haud'
    cases halg'
    have hissuer : token.options.issuer = options.issuer :=
      Json.string.inj (Option.some.inj (hiss.symm.trans hiss'))
    have hlive := hunexpired hnow _ _ hexp (readDecimal_ofNat _)
    exact if_pos ⟨halg, hsigned, hissuer, haddressed, Int.ofNat_lt.mp hlive⟩

theorem unforgeable_sampleJwt : Unforgeable sampleCrypto sampleJwt where
  made token key hsigned := by
    simp only [sampleJwt, SampleToken.isSigned, Bool.and_eq_true, decide_eq_true_eq] at hsigned
    exact ⟨token.key, token.payload, token.options, token.signedAt, token.nonce,
      hsigned.2.symm, rfl⟩
  bound payload privateKey options now nonce key hsigned := by
    simp only [sampleJwt, SampleToken.isSigned, Bool.and_eq_true, decide_eq_true_eq] at hsigned
    exact hsigned.2.symm

def oldEnv : Env where
  jwtKid := ['k', '1']
  jwtPrivateKey := ['A', 'A', 'A', 'A']
  jwtPublicKey := ['A', 'A', 'A', 'A']
  jwtPreviousKid := none
  jwtPreviousPublicKey := none
  jwtKid_ne_nil := List.cons_ne_nil _ _

def newEnv : Env where
  jwtKid := ['k', '2']
  jwtPrivateKey := ['A', 'A', 'A', 'A', 'A', 'A', 'A', 'A']
  jwtPublicKey := ['A', 'A', 'A', 'A', 'A', 'A', 'A', 'A']
  jwtPreviousKid := some ['k', '1']
  jwtPreviousPublicKey := some ['A', 'A', 'A', 'A']
  jwtKid_ne_nil := List.cons_ne_nil _ _

theorem rotation_sample : Rotation sampleCrypto [newEnv, oldEnv] := by
  refine .install oldEnv newEnv [] (.first oldEnv ?_) ?_ ?_ rfl rfl
  · rfl
  · rfl
  · intro env henv
    rw [List.mem_singleton.mp henv]
    decide

theorem assumed_sample :
    Assumed sampleCrypto readDecimal JsNumber.text sampleJwt [newEnv, oldEnv] where
  keys := by
    refine ⟨fun pem key hkey => ?_, fun pem key hkey => ?_⟩ <;> cases hkey <;> rfl
  tokens := documented_sampleJwt
  numbers value _ := readDecimal_decimal value
  unforgeable := unforgeable_sampleJwt
  fingerprints env henv privateKey publicKey hprivate hpublic _ := by
    have hsame : env.jwtPrivateKey = env.jwtPublicKey := by
      simp only [List.mem_cons, List.not_mem_nil, or_false] at henv
      rcases henv with rfl | rfl <;> rfl
    rw [hsame] at hprivate
    obtain ⟨hprivate, -⟩ := Option.filter_eq_some_iff.mp hprivate
    obtain ⟨hpublic, -⟩ := Option.filter_eq_some_iff.mp hpublic
    cases hprivate
    cases hpublic
    rfl

/-- A customer who logged in before the rotation goes on after it. -/
theorem rotation_overlap_sample :
    ∃ signer verifier, KeyStore.new sampleCrypto oldEnv = some signer ∧
      KeyStore.new sampleCrypto newEnv = some verifier ∧
      verifyAccess readDecimal sampleJwt verifier
        (signAccess JsNumber.text sampleJwt signer (.integer 7) .customer ['f']
          ['j'] 0 0).token 1000 =
          .ok ⟨7, .customer, ['j'], ['f'], .integer 600⟩ := by
  obtain ⟨hstores, htokens, -⟩ := rotation_overlap assumed_sample rotation_sample
  have hnew : newEnv ∈ [newEnv, oldEnv] := List.mem_cons_self
  have hold : oldEnv ∈ [newEnv, oldEnv] := List.mem_cons_of_mem _ List.mem_cons_self
  obtain ⟨signer, hsigner⟩ := hstores oldEnv hold
  obtain ⟨verifier, hverifier⟩ := hstores newEnv hnew
  refine ⟨signer, verifier, hsigner, hverifier, ?_⟩
  exact (htokens oldEnv hold signer hsigner newEnv hnew verifier hverifier 7 .customer ['f']
    ['j'] 0 0
    1000 (Double.isDouble_of_lt (by decide)) (by decide) (by decide) (by decide)).1 (.inr ⟨_, rfl⟩)
      (by decide)

end Marketplace.TokenService
