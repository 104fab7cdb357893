import Marketplace.Auth.KeyRotation
import Marketplace.Config.GenJwtKeys

/-!
# Which keys the generator leaves

What the directory stands for is two slots: the run that generated the current pair, and the run
whose public key is in the previous slot. Every run that succeeds moves the slots, and the key store
accepts the keys of the slots. `--force` moves only the first one.
-/

namespace Marketplace.KeyFiles

open Checkout (JsNumber)
open Config (Crypto Env validateAuthEnv valid_of_validateAuthEnv validateAuthEnv_of_valid truthy)
open JsText (trim trim_of_plain)
open TokenService

variable {Key Token : Type} {crypto : Crypto Key} {number : Text → JsNumber} {jwt : Jwt Key Token}
  {slug : Slug} {files final : Files} {run last old : Run crypto} {past : List (Run crypto)}

/-! ### The slots -/

structure Slots (crypto : Crypto Key) where
  current : Option (Run crypto)
  previous : Option (Run crypto)

namespace Slots

def empty : Slots crypto := ⟨none, none⟩

def next (slots : Slots crypto) (run : Run crypto) : Slots crypto where
  current := some run
  previous := if run.mode = .rotate then slots.current else slots.previous

def after (runs : List (Run crypto)) : Slots crypto := runs.foldl next empty

theorem after_append : after (past ++ [last]) = (after past).next last := by
  rw [after, List.foldl_append]
  rfl

theorem current_after (runs : List (Run crypto)) : (after runs).current = runs.getLast? := by
  induction runs using List.reverseRecOn with
  | nil => rfl
  | append_singleton past last _ =>
      rw [after_append, List.getLast?_append]
      rfl

theorem previous_after : (after (past ++ [last])).previous =
    if last.mode = .rotate then past.getLast? else (after past).previous := by
  rw [after_append, ← current_after]
  rfl

theorem mem_of_previous_after (hprevious : (after (past ++ [last])).previous = some old) :
    old ∈ past := by
  induction past using List.reverseRecOn generalizing last with
  | nil =>
      rw [previous_after] at hprevious
      split at hprevious <;> cases hprevious
  | append_singleton past run ih =>
      rw [previous_after] at hprevious
      split at hprevious
      · exact List.mem_of_getLast? hprevious
      · exact List.mem_append_left _ (ih hprevious)

end Slots

/-- The files that `--rotate` needs, as `run` leaves them. -/
structure Holds (files : Files) (run : Run crypto) : Prop where
  privatePem : files.privatePem = some run.pair.privatePem
  publicPem : files.publicPem = some run.pair.publicPem
  kid : ∃ kid, files.kid = some kid ∧ IsKid kid
  refreshPepper : ∃ bytes : List Base64.Byte, bytes.length = 32 ∧
    files.refreshPepper = some (Base64.encode bytes)

/-- The previous slot is empty, or has the public key and the `kid` that an earlier run left. -/
inductive HoldsPrevious (files : Files) : Option (Run crypto) → Prop
  | empty (hpublicPem : files.previousPublicPem = none) (hkid : files.previousKid = none) :
      HoldsPrevious files none
  | copied (old : Run crypto) (kid : Text)
      (hpublicPem : files.previousPublicPem = some old.pair.publicPem)
      (hkid : files.previousKid = some kid) (hisKid : IsKid kid) : HoldsPrevious files (some old)

theorem HoldsPrevious.congr {slot : Option (Run crypto)} (hprevious : HoldsPrevious files slot)
    (hpublicPem : final.previousPublicPem = files.previousPublicPem)
    (hkid : final.previousKid = files.previousKid) : HoldsPrevious final slot := by
  cases hprevious with
  | empty hnoPem hnoKid => exact .empty (hpublicPem.trans hnoPem) (hkid.trans hnoKid)
  | copied old kid hsomePem hsomeKid hisKid =>
      exact .copied old kid (hpublicPem.trans hsomePem) (hkid.trans hsomeKid) hisKid

structure Represents (files : Files) (slots : Slots crypto) : Prop where
  absent : slots.current = none → files = Files.empty
  holds : ∀ run, slots.current = some run → Holds files run
  previous : HoldsPrevious files slots.previous

theorem represents_empty : Represents Files.empty (Slots.empty : Slots crypto) where
  absent _ := rfl
  holds _ hrun := by cases hrun
  previous := .empty rfl rfl

/-! ### A run -/

theorem genJwtKeys_eq_some (hstep : genJwtKeys slug files run = some final) :
    refuses files run.mode = false ∧ final = written slug files run := by
  unfold genJwtKeys at hstep
  split at hstep
  · cases hstep
  rename_i hrefuses
  exact ⟨Bool.not_eq_true _ ▸ hrefuses, (Option.some.inj hstep).symm⟩

theorem written_of_rotate (hmode : run.mode = .rotate) : written slug files run =
    ⟨some run.pair.privatePem, some run.pair.publicPem, some (kidOf slug run (files.kid.map trim)),
      files.refreshPepper, files.publicPem, files.kid.map trim⟩ := by
  simp [written, hmode]

theorem written_of_ne (hmode : run.mode ≠ .rotate) : written slug files run =
    ⟨some run.pair.privatePem, some run.pair.publicPem, some (kidOf slug run none),
      some (Base64.encode run.pepper), files.previousPublicPem, files.previousKid⟩ := by
  simp [written, hmode]

/-- A run moves the slots. -/
theorem Represents.step {slots : Slots crypto} (hrep : Represents files slots)
    (hstep : genJwtKeys slug files run = some final) :
    Represents final (slots.next run) ∧ (run.mode = .rotate → slots.current ≠ none) := by
  obtain ⟨hrefuses, rfl⟩ := genJwtKeys_eq_some hstep
  by_cases hmode : run.mode = .rotate
  · have hcurrent : slots.current ≠ none := by
      intro hnone
      rw [hrep.absent hnone, hmode] at hrefuses
      revert hrefuses
      decide
    obtain ⟨before, hbefore⟩ := Option.ne_none_iff_exists'.mp hcurrent
    obtain ⟨-, hpublic, ⟨kid, hkid, hisKid⟩, hpepper⟩ := hrep.holds before hbefore
    have htrim : files.kid.map trim = some kid := by
      rw [hkid, Option.map_some, trim_of_plain hisKid.plain]
    have hprevious : (slots.next run).previous = some before := by
      rw [Slots.next, if_pos hmode, hbefore]
    refine ⟨?_, fun _ => hcurrent⟩
    rw [written_of_rotate hmode, htrim]
    exact {
      absent := nofun
      holds := by
        rintro _ ⟨⟩
        exact ⟨rfl, rfl, ⟨_, rfl, isKid_kidOf _ _ _⟩, hpepper⟩
      previous := by
        rw [hprevious]
        exact .copied before kid hpublic rfl hisKid }
  · have hprevious : (slots.next run).previous = slots.previous := by
      rw [Slots.next, if_neg hmode]
    refine ⟨?_, fun hrotate => absurd hrotate hmode⟩
    rw [written_of_ne hmode]
    exact {
      absent := nofun
      holds := by
        rintro _ ⟨⟩
        exact ⟨rfl, rfl, ⟨_, rfl, isKid_kidOf _ _ _⟩, ⟨_, run.pepper.property, rfl⟩⟩
      previous := by
        -- nothing but `--rotate` writes the two files of the slot, or removes them
        rw [hprevious]
        exact hrep.previous.congr rfl rfl }

theorem run_append_singleton
    (hrun : Transition.run (genJwtKeys slug) Files.empty (past ++ [last]) = some files) :
    ∃ middle, Transition.run (genJwtKeys slug) Files.empty past = some middle ∧
      genJwtKeys slug middle last = some files := by
  rw [Transition.run_append] at hrun
  obtain ⟨middle, hpast, hlast⟩ := Option.bind_eq_some_iff.mp hrun
  rw [Transition.run_cons] at hlast
  obtain ⟨_, hstep, hnil⟩ := Option.bind_eq_some_iff.mp hlast
  cases hnil
  exact ⟨middle, hpast, hstep⟩

/-- After any number of runs. -/
theorem represents_of_run {runs : List (Run crypto)}
    (hrun : Transition.run (genJwtKeys slug) Files.empty runs = some files) :
    Represents files (Slots.after runs) ∧
      ((Slots.after runs).previous = none ↔ ∀ run ∈ runs, run.mode ≠ .rotate) := by
  induction runs using List.reverseRecOn generalizing files with
  | nil =>
      cases hrun
      exact ⟨represents_empty, iff_of_true rfl nofun⟩
  | append_singleton past last ih =>
      obtain ⟨middle, hpast, hstep⟩ := run_append_singleton hrun
      obtain ⟨hrep, hnone⟩ := ih hpast
      obtain ⟨hnext, hcurrent⟩ := hrep.step hstep
      rw [Slots.after_append]
      refine ⟨hnext, ?_⟩
      rw [List.forall_mem_append, List.forall_mem_singleton, ← hnone, Slots.next]
      by_cases hmode : last.mode = .rotate
      · rw [if_pos hmode]
        exact iff_of_false (hcurrent hmode) fun hboth => hboth.2 hmode
      · rw [if_neg hmode]
        exact (and_iff_left hmode).symm

/-- The run before hands its `kid` to the previous slot and takes another one. -/
theorem previousKid_ne_of_rotate (hstep : genJwtKeys slug files run = some final)
    (hmode : run.mode = .rotate) : final.previousKid ≠ final.kid := by
  obtain ⟨-, rfl⟩ := genJwtKeys_eq_some hstep
  rw [written_of_rotate hmode]
  exact (kidOf_ne slug run _).symm

/-! ### The environment -/

variable {slot : Option (Run crypto)} {env : Env} {store : KeyStore Key}

/-- The environment names the current pair, and the public key of the previous slot. -/
structure Exports (files : Files) (run : Run crypto) (slot : Option (Run crypto)) (env : Env) :
    Prop where
  privateKey : env.jwtPrivateKey = base64Of run.pair.privatePem
  publicKey : env.jwtPublicKey = base64Of run.pair.publicPem
  kid : files.kid = some env.jwtKid
  previousKid : env.jwtPreviousKid = files.previousKid
  previousPublicKey : env.jwtPreviousPublicKey = slot.map fun old => base64Of old.pair.publicPem

theorem exportPrevious_of_holds (hprevious : HoldsPrevious files slot) :
    optionalVault (exportPrevious files).1 = files.previousKid ∧
      optionalVault (exportPrevious files).2 = slot.map fun old => base64Of old.pair.publicPem := by
  unfold exportPrevious
  cases hprevious with
  | empty hpublicPem hkid =>
      rw [hpublicPem, hkid]
      exact ⟨rfl, rfl⟩
  | copied old kid hpublicPem hkid hisKid =>
      rw [hpublicPem, hkid]
      dsimp only [Option.map_some]
      constructor
      · rw [shellText_of_plain hisKid.plain, optionalVault_of_plain hisKid.plain hisKid.ne_nil]
      · exact optionalVault_of_plain (plain_base64Of _) (base64Of_ne_nil old.pair.publicPem_ne_nil)

theorem exists_exports (hholds : Holds files run) (hprevious : HoldsPrevious files slot) :
    ∃ env, exportEnv files = some env ∧ Exports files run slot env := by
  obtain ⟨hprivate, hpublic, ⟨kid, hkid, hisKid⟩, bytes, hbytes, hpepper⟩ := hholds
  obtain ⟨hpreviousKid, hpreviousPublicKey⟩ := exportPrevious_of_holds hprevious
  have hset : shellText kid ≠ [] ∧ base64Of run.pair.privatePem ≠ [] ∧
      base64Of run.pair.publicPem ≠ [] ∧ 32 ≤ (shellText (Base64.encode bytes)).length := by
    rw [shellText_of_plain hisKid.plain, shellText_of_plain (plain_encode bytes),
      Base64.length_encode, hbytes]
    exact ⟨hisKid.ne_nil, base64Of_ne_nil run.pair.privatePem_ne_nil,
      base64Of_ne_nil run.pair.publicPem_ne_nil, by decide⟩
  unfold exportEnv
  rw [hprivate, hpublic, hkid, hpepper]
  dsimp only
  rw [dif_pos hset]
  refine ⟨_, rfl, rfl, rfl, ?_, hpreviousKid, hpreviousPublicKey⟩
  exact hkid.trans (congrArg some (shellText_of_plain hisKid.plain).symm)

theorem truthy_of_ne_nil {text : Text} (hne : text ≠ []) : truthy (some text) = some text := by
  simp [truthy, Option.filter, hne]

theorem truthy_previous (hprevious : HoldsPrevious files slot)
    (hexports : Exports files run slot env) :
    truthy env.jwtPreviousKid = files.previousKid ∧ truthy env.jwtPreviousPublicKey =
      slot.map fun old => base64Of old.pair.publicPem := by
  rw [hexports.previousKid, hexports.previousPublicKey]
  cases hprevious with
  | empty hpublicPem hkid =>
      rw [hkid]
      exact ⟨rfl, rfl⟩
  | copied old kid hpublicPem hkid hisKid =>
      rw [hkid]
      exact ⟨truthy_of_ne_nil hisKid.ne_nil,
        truthy_of_ne_nil (base64Of_ne_nil old.pair.publicPem_ne_nil)⟩

theorem previous_eq_some_iff (hprevious : HoldsPrevious files slot)
    (hexports : Exports files run slot env) {kid text : Text} :
    env.previous = some (kid, text) ↔ ∃ old, slot = some old ∧ files.previousKid = some kid ∧
      text = base64Of old.pair.publicPem := by
  obtain ⟨htruthyKid, htruthyText⟩ := truthy_previous hprevious hexports
  unfold Env.previous
  rw [htruthyKid, htruthyText]
  cases hprevious with
  | empty hpublicPem hkid => simp [hkid]
  | copied old previousKid hpublicPem hkid hisKid => simp [hkid, eq_comm]

/-- The environment is valid as soon as the two `kid`s differ. -/
theorem valid_of_exports (hdocumented : crypto.Documented) (hprevious : HoldsPrevious files slot)
    (hexports : Exports files run slot env) (hkids : files.previousKid ≠ files.kid) :
    env.Valid crypto run.pair.privateKey run.pair.publicKey where
  loadsPrivate := by rw [hexports.privateKey, run.pair.loadEs256PrivateKey]
  loadsPublic := by rw [hexports.publicKey, run.pair.loadEs256PublicKey]
  fingerprint := run.pair.publicKeyFingerprint hdocumented
  paired := by
    obtain ⟨htruthyKid, htruthyText⟩ := truthy_previous hprevious hexports
    rw [htruthyKid, htruthyText]
    cases hprevious with
    | empty hpublicPem hkid => simp [hkid]
    | copied old kid hpublicPem hkid hisKid => simp [hkid]
  previous := by
    intro kid text hslot
    obtain ⟨old, -, hkid, rfl⟩ := (previous_eq_some_iff hprevious hexports).mp hslot
    refine ⟨?_, old.pair.publicKey, old.pair.loadEs256PublicKey⟩
    rintro rfl
    exact hkids (hkid.trans hexports.kid.symm)

/-- The keys of the store are those of the two slots. -/
theorem registered_iff_slot (hprevious : HoldsPrevious files slot)
    (hexports : Exports files run slot env) {key : Key} : (∃ kid, Registered crypto env kid key) ↔
      key = run.pair.publicKey ∨ ∃ old, slot = some old ∧ key = old.pair.publicKey := by
  constructor
  · rintro ⟨kid, ⟨-, hload⟩ | ⟨text, hslot, hload⟩⟩
    · rw [hexports.publicKey, run.pair.loadEs256PublicKey] at hload
      exact .inl (Option.some.inj hload).symm
    · obtain ⟨old, hold, -, rfl⟩ := (previous_eq_some_iff hprevious hexports).mp hslot
      rw [old.pair.loadEs256PublicKey] at hload
      exact .inr ⟨old, hold, (Option.some.inj hload).symm⟩
  · rintro (rfl | ⟨old, hold, rfl⟩)
    · refine ⟨env.jwtKid, .inl ⟨rfl, ?_⟩⟩
      rw [hexports.publicKey, run.pair.loadEs256PublicKey]
    · cases hprevious with
      | empty hpublicPem hkid => cases hold
      | copied old' kid hpublicPem hkid hisKid =>
          cases hold
          exact ⟨kid, .inr ⟨_, (previous_eq_some_iff (.copied old kid hpublicPem hkid hisKid)
            hexports).mpr ⟨old, rfl, hkid, rfl⟩, old.pair.loadEs256PublicKey⟩⟩

theorem verificationKeys_iff_slot (hprevious : HoldsPrevious files slot)
    (hexports : Exports files run slot env) (haccepted : validateAuthEnv crypto env = .ok env)
    (hstore : KeyStore.new crypto env = some store) {key : Key} :
    (∃ kid, store.verificationKeys kid = some key) ↔
      key = run.pair.publicKey ∨ ∃ old, slot = some old ∧ key = old.pair.publicKey := by
  obtain ⟨_, _, hvalid⟩ := valid_of_validateAuthEnv haccepted
  obtain ⟨-, -, hkeys⟩ := keyStore_spec hvalid hstore
  rw [← registered_iff_slot hprevious hexports]
  exact exists_congr fun kid => hkeys kid key

/-- A token is only accepted if the public half of the key that signed it is. -/
theorem verifyAccess_ne_ok (hjwt : jwt.Documented crypto number)
    (hunforgeable : Unforgeable crypto jwt)
    (hstale : ¬ ∃ kid, store.verificationKeys kid = some run.pair.publicKey)
    (payload : List (Text × Json)) (options : SignOptions) (signedAt nonce now : Nat)
    (principal : TokenService.AccessPrincipal) : TokenService.verifyAccess number jwt store
      (jwt.sign payload run.pair.privateKey options signedAt nonce) now ≠ .ok principal := by
  intro hok
  obtain ⟨kid, key, header, claims, hkey, -, hverified, -⟩ := verifyAccess_sound hjwt hok
  have hsigner := hunforgeable.bound payload run.pair.privateKey options signedAt nonce key
    hverified.signed
  rw [run.pair.paired] at hsigner
  exact hstale ⟨kid, hsigner ▸ hkey⟩

/-! ### A clean key set -/

/-- The service starts from the directory, signs with the newest key and accepts that key, after
`--rotate` the one before it as well, and no other; after `--force` no older token is accepted. -/
structure Clean (number : Text → JsNumber) (jwt : Jwt Key Token) (files : Files)
    (past : List (Run crypto)) (last : Run crypto) (env : Env) (store : KeyStore Key) : Prop where
  exported : exportEnv files = some env
  accepted : validateAuthEnv crypto env = .ok env
  kids : env.jwtPreviousKid ≠ some env.jwtKid
  started : KeyStore.new crypto env = some store
  signs : store.signingKey = last.pair.privateKey
  keys : ∀ key, (∃ kid, store.verificationKeys kid = some key) ↔ key = last.pair.publicKey ∨
    last.mode = .rotate ∧ ∃ before, past.getLast? = some before ∧ key = before.pair.publicKey
  forced : last.mode = .force → ∀ run ∈ past, ∀ payload options signedAt nonce now principal,
    TokenService.verifyAccess number jwt store
      (jwt.sign payload run.pair.privateKey options signedAt nonce) now ≠ .ok principal

theorem publicKey_ne_of_nodup
    (hfresh : ((past ++ [last]).map fun run => run.pair.publicKey).Nodup) :
    ∀ run ∈ past, run.pair.publicKey ≠ last.pair.publicKey := by
  intro run hrun heq
  rw [List.map_append, List.map_singleton, List.nodup_append] at hfresh
  exact hfresh.2.2 _ (List.mem_map_of_mem hrun) _ List.mem_cons_self heq

/-- What is in the previous slot after a run whose set is clean. -/
theorem previous_after_of_condition
    (hrun : Transition.run (genJwtKeys slug) Files.empty (past ++ [last]) = some files)
    (hcondition : last.mode = .rotate ∨ ∀ run ∈ past, run.mode ≠ .rotate)
    (hmode : last.mode ≠ .rotate) :
    (Slots.after (past ++ [last])).previous = none := by
  rw [(represents_of_run hrun).2, List.forall_mem_append, List.forall_mem_singleton]
  exact ⟨hcondition.resolve_left hmode, hmode⟩

theorem exists_clean (hdocumented : crypto.Documented) (hjwt : jwt.Documented crypto number)
    (hunforgeable : Unforgeable crypto jwt)
    (hrun : Transition.run (genJwtKeys slug) Files.empty (past ++ [last]) = some files)
    (hfresh : ((past ++ [last]).map fun run => run.pair.publicKey).Nodup)
    (hcondition : last.mode = .rotate ∨ ∀ run ∈ past, run.mode ≠ .rotate) :
    ∃ env store, Clean number jwt files past last env store := by
  obtain ⟨hrep, -⟩ := represents_of_run hrun
  obtain ⟨middle, -, hstep⟩ := run_append_singleton hrun
  have hholds : Holds files last := hrep.holds last (by rw [Slots.after_append, Slots.next])
  obtain ⟨env, hexported, hexports⟩ := exists_exports hholds hrep.previous
  have hnone : last.mode ≠ .rotate → (Slots.after (past ++ [last])).previous = none :=
    previous_after_of_condition hrun hcondition
  have hkids : files.previousKid ≠ files.kid := by
    by_cases hmode : last.mode = .rotate
    · exact previousKid_ne_of_rotate hstep hmode
    · have hslot := hrep.previous
      rw [hnone hmode] at hslot
      cases hslot with
      | empty hpublicPem hkid =>
          rw [hkid, hexports.kid]
          exact nofun
  have hvalid := valid_of_exports hdocumented hrep.previous hexports hkids
  have haccepted := validateAuthEnv_of_valid hvalid
  obtain ⟨store, hstore⟩ := exists_keyStore hvalid
  have hkeys : ∀ key, (∃ kid, store.verificationKeys kid = some key) ↔
      key = last.pair.publicKey ∨
        last.mode = .rotate ∧ ∃ before, past.getLast? = some before ∧
          key = before.pair.publicKey := by
    intro key
    rw [verificationKeys_iff_slot hrep.previous hexports haccepted hstore]
    by_cases hmode : last.mode = .rotate
    · rw [Slots.previous_after, if_pos hmode, and_iff_right hmode]
    · rw [hnone hmode]
      simp [hmode]
  refine ⟨env, store, hexported, haccepted, ?_, hstore, (keyStore_spec hvalid hstore).2.1,
    hkeys, ?_⟩
  · rw [hexports.previousKid, ← hexports.kid]
    exact hkids
  · intro hforce run hmem payload options signedAt nonce now principal
    refine verifyAccess_ne_ok hjwt hunforgeable ?_ payload options signedAt nonce now principal
    rw [hkeys]
    rintro (hsame | ⟨hrotate, -⟩)
    · exact publicKey_ne_of_nodup hfresh run hmem hsame
    · rw [hforce] at hrotate
      cases hrotate

/-- A key that a rotation put into the previous slot stays there until the next rotation. -/
theorem condition_of_clean
    (hrun : Transition.run (genJwtKeys slug) Files.empty (past ++ [last]) = some files)
    (hfresh : ((past ++ [last]).map fun run => run.pair.publicKey).Nodup)
    (hclean : Clean number jwt files past last env store) :
    last.mode = .rotate ∨ ∀ run ∈ past, run.mode ≠ .rotate := by
  obtain ⟨hrep, hrotated⟩ := represents_of_run hrun
  have hholds : Holds files last := hrep.holds last (by rw [Slots.after_append, Slots.next])
  obtain ⟨_, hexported, hexports⟩ := exists_exports hholds hrep.previous
  rw [hclean.exported] at hexported
  cases hexported
  by_cases hmode : last.mode = .rotate
  · exact .inl hmode
  · refine .inr fun run hmem => ?_
    have hnone : (Slots.after (past ++ [last])).previous = none := by
      rw [Option.eq_none_iff_forall_ne_some]
      intro old hold
      -- the key of the slot is accepted, and it is not the newest one
      have haccepts := (verificationKeys_iff_slot hrep.previous hexports hclean.accepted
        hclean.started).mpr (.inr ⟨old, hold, rfl⟩)
      rw [hclean.keys] at haccepts
      rcases haccepts with hsame | ⟨hrotate, -⟩
      · exact publicKey_ne_of_nodup hfresh old (Slots.mem_of_previous_after hold) hsame
      · exact hmode hrotate
    exact hrotated.mp hnone run (List.mem_append_left _ hmem)

/-- The key set is clean exactly if the last run was a rotation or no run before it was. -/
theorem clean_iff (slug : Slug) (hdocumented : crypto.Documented)
    (hjwt : jwt.Documented crypto number) (hunforgeable : Unforgeable crypto jwt)
    {past : List (Run crypto)} {last : Run crypto} {files : Files}
    (hrun : Transition.run (genJwtKeys slug) Files.empty (past ++ [last]) = some files)
    (hfresh : ((past ++ [last]).map fun run => run.pair.publicKey).Nodup) :
    (∃ env store, Clean number jwt files past last env store) ↔
      last.mode = .rotate ∨ ∀ run ∈ past, run.mode ≠ .rotate := by
  constructor
  · rintro ⟨env, store, hclean⟩
    exact condition_of_clean hrun hfresh hclean
  · exact exists_clean hdocumented hjwt hunforgeable hrun hfresh

/-! ### Three runs -/

def samplePair (id : Nat) : KeyPair sampleCrypto where
  privatePem := List.replicate (id + 1) 'A'
  publicPem := List.replicate (id + 1) 'A'
  privateKey := ⟨id + 1, true⟩
  publicKey := ⟨id + 1, false⟩
  privatePem_ne_nil := List.cons_ne_nil _ _
  publicPem_ne_nil := List.cons_ne_nil _ _
  loadsPrivate := by simp [sampleCrypto]
  loadsPublic := by simp [sampleCrypto]
  es256Private := rfl
  es256Public := rfl
  paired := rfl

def sampleRun (mode : Mode) (id ms : Nat) : Run sampleCrypto where
  mode := mode
  pair := samplePair id
  pepper := ⟨List.replicate 32 0, List.length_replicate⟩
  newDate := ms
  dateNow := ms

/-- A rotation on the day of the first run. -/
theorem clean_iff_rotated :
    ∃ files, Transition.run (genJwtKeys .dev) Files.empty
        [sampleRun .first 0 1700000000000, sampleRun .rotate 1 1700000000000] = some files ∧
      ∃ env store, Clean readDecimal sampleJwt files [sampleRun .first 0 1700000000000]
        (sampleRun .rotate 1 1700000000000) env store := by
  refine ⟨_, rfl, ?_⟩
  rw [clean_iff .dev assumed_sample.keys documented_sampleJwt unforgeable_sampleJwt rfl (by decide)]
  exact .inl rfl

def sampleSigner : KeyStore SampleKey where
  kid := kidOf .dev (sampleRun .first 0 0) none
  signingKey := (samplePair 0).privateKey
  verificationKeys _ := none

/-- First run, rotation, `--force`. On three days, a token of the first key is accepted at the end;
on one day, the service does not start. -/
theorem forced_not_clean :
    (∃ files env store, Transition.run (genJwtKeys .dev) Files.empty [sampleRun .first 0 0,
        sampleRun .rotate 1 86400000, sampleRun .force 2 172800000] = some files ∧
      exportEnv files = some env ∧ validateAuthEnv sampleCrypto env = .ok env ∧
      KeyStore.new sampleCrypto env = some store ∧
      TokenService.verifyAccess readDecimal sampleJwt store (TokenService.signAccess JsNumber.text
          sampleJwt sampleSigner (.integer 7) .customer ['f'] ['j'] 172800000 0).token 172801000 =
        .ok ⟨7, .customer, ['j'], ['f'], .integer 173400⟩) ∧
    ∃ files env message, Transition.run (genJwtKeys .dev) Files.empty [sampleRun .first 0 0,
        sampleRun .rotate 1 0, sampleRun .force 2 0] = some files ∧
      exportEnv files = some env ∧ validateAuthEnv sampleCrypto env = .error message := by
  refine ⟨⟨_, _, _, rfl, rfl, rfl, rfl, ?_⟩, _, _, _, rfl, rfl, rfl⟩
  exact verifyAccess_live documented_sampleJwt .customer ['f'] ['j'] 172800000 0 172801000
    (readDecimal_decimal 7) (by decide) rfl rfl (by decide) (by decide +kernel) (by decide)
    (by decide) (by decide)

end Marketplace.KeyFiles
