import Marketplace.Sessions.SessionStore

/-!
# What a session is

A session ends when it is destroyed, when it is left alone for `ttlSec`, and when it is
`absoluteTtlSec` old. Redis keeps the second limit and the code the third, after it has put the
second off once more.
-/

namespace Marketplace.Sessions

open Expiring.Store
open Transition

structure Session where
  createdAt : Nat
  lastAccess : Nat
  values : Json
  deriving DecidableEq

namespace Session

variable (options : SessionStoreOptions) (now : Nat) (session : Session)

def data : SessionData := ⟨session.createdAt, session.values⟩

def touch : Session := { session with lastAccess := now }

def Past : Prop := session.createdAt + seconds options.absoluteTtlSec < now

def Readable : Prop := now < session.lastAccess + seconds options.ttlSec ∧
    ¬ session.Past options now

end Session

/-- The sessions there are, whether they can be read or not. -/
abbrev SessionMap := Text → Option Session

def follow (sessions : SessionMap) : Event → SessionMap
  | .created sid time values => Function.update sessions sid (some ⟨time, time, values⟩)
  | .got sid time (some _) => Function.update sessions sid ((sessions sid).map (Session.touch time))
  | .got _ _ none => sessions
  | .destroyed sid _ => Function.update sessions sid none

def sessionsAfter (history : List Event) : SessionMap := history.foldl follow fun _ => none

@[simp]
def Event.sid : Event → Text
  | .created sid _ _ | .got sid _ _ | .destroyed sid _ => sid

def textOf (session : Session) : Text := Json.stringify session.data.toJson

section Invariant

variable (options : SessionStoreOptions) (state : State)

/-- What Redis holds of a session. One that is past is kept for as long as someone asks for it. -/
def Kept (clock : Nat) (stored : Option (Expiring.Item Text)) : Option Session → Prop
  | none => stored = none
  | some session =>
      stored = some ⟨textOf session, session.lastAccess + seconds options.ttlSec⟩ ∨
        session.Past options clock ∧ ∀ item ∈ stored, item.value = textOf session

structure StoreInv : Prop where
  kept : ∀ sid, Kept options state.clock (state.redis (sessionKey sid))
    (sessionsAfter state.history sid)
  created : ∀ sid session, sessionsAfter state.history sid = some session →
    sid ∈ createdSids state.history ∧ sidPattern sid = true
  deleting : ∀ sid ∈ state.deleting, sid ∈ createdSids state.history ∧
    ∀ session, sessionsAfter state.history sid = some session → session.Past options state.clock

end Invariant

variable {options : SessionStoreOptions} {before after state : State} {action : Action}
  {sid other : Text} {session : Session} {history : List Event} {event : Event}

@[simp]
theorem sessionsAfter_append (history : List Event) (event : Event) :
    sessionsAfter (history ++ [event]) = follow (sessionsAfter history) event := by
  simp [sessionsAfter]

theorem Session.Past.mono {now later : Nat} (hpast : session.Past options now) (hle : now ≤ later) :
    session.Past options later :=
  Nat.lt_of_lt_of_le hpast hle

theorem sessionKey_ne (hne : other ≠ sid) : sessionKey other ≠ sessionKey sid :=
  fun heq => hne (sessionKey_injective heq)

/-! ### `get` -/

/-- A session that can be read is, and nothing else is. -/
theorem StoreInv.get_cases (hinv : StoreInv options state) (sid : Text) :
    (∃ session, sessionsAfter state.history sid = some session ∧
      session.Readable options state.clock ∧
      get options state.redis state.clock sid = (some session.data.toJson,
        state.redis.set state.clock (sessionKey sid) (textOf session) (seconds options.ttlSec),
          false)) ∨
    (∀ session, sessionsAfter state.history sid = some session →
      ¬ session.Readable options state.clock) ∧
      (get options state.redis state.clock sid = (none, state.redis, false) ∨
        ∃ session, sessionsAfter state.history sid = some session ∧
          session.Past options state.clock ∧
          get options state.redis state.clock sid = (none,
            state.redis.set state.clock (sessionKey sid) (textOf session)
              (seconds options.ttlSec), true)) := by
  have hkept := hinv.kept sid
  cases hsession : sessionsAfter state.history sid with
  | none =>
      rw [hsession] at hkept
      exact .inr ⟨nofun, .inl (get_of_none (read_of_eq_none hkept state.clock))⟩
  | some session =>
      rw [hsession] at hkept
      have hpattern := (hinv.created sid session hsession).2
      by_cases hpast : session.Past options state.clock
      · right
        refine ⟨fun found hfound hreadable => ?_, ?_⟩
        · cases hfound
          exact hreadable.2 hpast
        · cases hread : state.redis.read state.clock (sessionKey sid) with
          | none => exact .inl (get_of_none hread)
          | some raw =>
              obtain ⟨item, hitem, hlive, rfl⟩ := read_eq_some hread
              have htext : item.value = textOf session := by
                obtain hstored | ⟨-, htext⟩ := hkept
                · rw [hstored] at hitem
                  cases hitem
                  rfl
                · exact htext item hitem
              refine .inr ⟨session, rfl, hpast, ?_⟩
              rw [htext] at hread
              have hpast' : session.data.createdAt + seconds options.absoluteTtlSec <
                  state.clock := hpast
              rw [get_of_read hpattern hread, if_pos hpast', decide_eq_true hpast']
              rfl
      · have hstored := hkept.resolve_right fun hkept => hpast hkept.1
        by_cases hlive : state.clock < session.lastAccess + seconds options.ttlSec
        · have hpast' : ¬ session.data.createdAt + seconds options.absoluteTtlSec <
              state.clock := hpast
          refine .inl ⟨session, rfl, ⟨hlive, hpast⟩, ?_⟩
          rw [get_of_read hpattern (read_of_lt hstored hlive), if_neg hpast',
            decide_eq_false hpast']
          rfl
        · refine .inr ⟨fun found hfound hreadable => ?_, .inl (get_of_none (read_of_ge hstored ?_))⟩
          · cases hfound
            exact hlive hreadable.1
          · exact Nat.le_of_not_lt hlive

/-! ### The store follows -/

theorem Kept.mono {clock later : Nat} {stored : Option (Expiring.Item Text)}
    {known : Option Session} (hkept : Kept options clock stored known) (hle : clock ≤ later) :
    Kept options later stored known := by
  cases known with
  | none => exact hkept
  | some session => exact hkept.imp_right fun hpast => ⟨hpast.1.mono hle, hpast.2⟩

theorem createdSids_append (history : List Event) (event : Event) :
    createdSids history ⊆ createdSids (history ++ [event]) := by
  unfold createdSids
  rw [List.filterMap_append]
  exact List.subset_append_left _ _

@[simp]
theorem createdSids_got (history : List Event) (sid : Text) (time : Nat) (data : Option Json) :
    createdSids (history ++ [.got sid time data]) = createdSids history := by
  simp [createdSids]

theorem StoreInv.tick (hinv : StoreInv options before) (ms : Nat) :
    StoreInv options { before with clock := before.clock + ms } where
  kept sid := (hinv.kept sid).mono (Nat.le_add_right _ _)
  created := hinv.created
  deleting sid hsid := by
    obtain ⟨hcreated, hpast⟩ := hinv.deleting sid hsid
    exact ⟨hcreated, fun session hsession => (hpast session hsession).mono (Nat.le_add_right _ _)⟩

theorem follow_of_ne (sessions : SessionMap) (hne : other ≠ event.sid) :
    follow sessions event other = sessions other := by
  cases event with
  | created sid time values => exact Function.update_of_ne hne _ _
  | got sid time data =>
      cases data with
      | none => rfl
      | some data => exact Function.update_of_ne hne _ _
  | destroyed sid time => exact Function.update_of_ne hne _ _

/-- The step lemma of the store: what is left to check is the session that the event is about. -/
theorem StoreInv.move (hinv : StoreInv options before) {redis : Redis} {deleting : List Text}
    (hredis : ∀ other, other ≠ event.sid →
      redis (sessionKey other) = before.redis (sessionKey other))
    (hdeleting : ∀ other ∈ deleting, other ≠ event.sid → other ∈ before.deleting)
    (hkept : Kept options before.clock (redis (sessionKey event.sid))
      (follow (sessionsAfter before.history) event event.sid))
    (hcreated : ∀ session, follow (sessionsAfter before.history) event event.sid = some session →
      event.sid ∈ createdSids (before.history ++ [event]) ∧ sidPattern event.sid = true)
    (hpast : event.sid ∈ deleting → event.sid ∈ createdSids (before.history ++ [event]) ∧
      ∀ session, follow (sessionsAfter before.history) event event.sid = some session →
        session.Past options before.clock) :
    StoreInv options { before with
      redis := redis
      deleting := deleting
      history := before.history ++ [event] } where
  kept other := by
    rw [sessionsAfter_append]
    by_cases heq : other = event.sid
    · exact heq ▸ hkept
    · rw [follow_of_ne _ heq]
      dsimp only
      rw [hredis other heq]
      exact hinv.kept other
  created other session hsession := by
    rw [sessionsAfter_append] at hsession
    by_cases heq : other = event.sid
    · subst heq
      exact hcreated session hsession
    · rw [follow_of_ne _ heq] at hsession
      obtain ⟨hold, hpattern⟩ := hinv.created other session hsession
      exact ⟨createdSids_append _ _ hold, hpattern⟩
  deleting other hother := by
    rw [sessionsAfter_append]
    by_cases heq : other = event.sid
    · subst heq
      exact hpast hother
    · rw [follow_of_ne _ heq]
      obtain ⟨hold, hpast⟩ := hinv.deleting other (hdeleting other hother heq)
      exact ⟨createdSids_append _ _ hold, hpast⟩

theorem StoreInv.create (hinv : StoreInv options before) {bytes : List Base64.Byte} {values : Json}
    (hlength : bytes.length = 32) (hfresh : Base64.encode bytes ∉ createdSids before.history) :
    StoreInv options { before with
      redis := create options before.redis before.clock (Base64.encode bytes) values
      history := before.history ++ [.created (Base64.encode bytes) before.clock values] } := by
  apply hinv.move
  · exact fun other hne => set_of_ne (sessionKey_ne hne) _ _ _
  · exact fun other hother _ => hother
  · rw [follow, Event.sid, Function.update_self]
    exact .inl (set_self _)
  · intro session _
    exact ⟨by simp [createdSids, Event.sid], sidPattern_encode hlength⟩
  · intro hdeleting
    exact absurd (hinv.deleting _ hdeleting).1 hfresh

theorem StoreInv.get (hinv : StoreInv options before) (sid : Text) :
    StoreInv options { before with
      redis := (get options before.redis before.clock sid).2.1
      deleting := before.deleting ++ if (get options before.redis before.clock sid).2.2 then
        [sid] else []
      history := before.history ++
        [.got sid before.clock (get options before.redis before.clock sid).1] } := by
  obtain ⟨session, hsession, hreadable, hget⟩ | ⟨-, hget | ⟨session, hsession, hpast, hget⟩⟩ :=
    hinv.get_cases sid
  · rw [hget]
    apply hinv.move
    · exact fun other hne => set_of_ne (sessionKey_ne hne) _ _ _
    · exact fun other hother _ => by simpa using hother
    · rw [follow, Event.sid, Function.update_self, hsession]
      exact .inl (set_self _)
    · intro found _
      rw [createdSids_got]
      exact hinv.created sid session hsession
    · intro hdeleting
      -- A session that is about to be deleted is past, and this one is not.
      have hpast := (hinv.deleting sid (by simpa using hdeleting)).2 session hsession
      exact absurd hpast hreadable.2
  · rw [hget]
    apply hinv.move
    · exact fun other _ => rfl
    · exact fun other hother _ => by simpa using hother
    · exact hinv.kept sid
    · intro found hfound
      rw [createdSids_got]
      exact hinv.created sid found hfound
    · intro hdeleting
      rw [createdSids_got]
      exact hinv.deleting sid (by simpa using hdeleting)
  · rw [hget]
    apply hinv.move
    · exact fun other hne => set_of_ne (sessionKey_ne hne) _ _ _
    · intro other hother hne
      simpa [show other ≠ sid from hne] using hother
    · rw [follow, Event.sid, hsession]
      refine .inr ⟨hpast, fun item hitem => ?_⟩
      dsimp only at hitem
      rw [set_self] at hitem
      cases hitem
      rfl
    · intro found hfound
      rw [createdSids_got]
      exact hinv.created sid found hfound
    · intro _
      rw [createdSids_got]
      refine ⟨(hinv.created sid session hsession).1, fun found hfound => ?_⟩
      rw [follow, Event.sid, hsession] at hfound
      cases hfound
      exact hpast

theorem StoreInv.del (hinv : StoreInv options before) {index : Nat}
    (hsid : before.deleting[index]? = some sid) :
    StoreInv options { before with
      redis := before.redis.delete (sessionKey sid)
      deleting := before.deleting.eraseIdx index } where
  kept other := by
    have hkept := hinv.kept other
    by_cases heq : other = sid
    · subst heq
      obtain ⟨-, hpast⟩ := hinv.deleting other (List.mem_of_getElem? hsid)
      dsimp only
      rw [delete_self]
      cases hsession : sessionsAfter before.history other with
      | none => rfl
      | some session => exact .inr ⟨hpast session hsession, nofun⟩
    · dsimp only
      rwa [delete_of_ne (sessionKey_ne heq)]
  created := hinv.created
  deleting other hother := hinv.deleting other (List.mem_of_mem_eraseIdx hother)

theorem StoreInv.destroy (hinv : StoreInv options before) (sid : Text) :
    StoreInv options { before with
      redis := destroy before.redis sid
      history := before.history ++ [.destroyed sid before.clock] } := by
  have hgone : follow (sessionsAfter before.history) (.destroyed sid before.clock) sid = none :=
    Function.update_self _ _ _
  apply hinv.move
  · intro other hne
    dsimp only [Sessions.destroy]
    split
    · exact delete_of_ne (sessionKey_ne hne)
    · rfl
  · exact fun other hother _ => hother
  · dsimp only [Event.sid]
    rw [hgone]
    dsimp only [Sessions.destroy]
    split
    · exact delete_self
    · rename_i hpattern
      have hkept := hinv.kept sid
      cases hsession : sessionsAfter before.history sid with
      | none =>
          rw [hsession] at hkept
          exact hkept
      | some session => exact absurd (hinv.created sid session hsession).2 hpattern
  · intro session hsession
    cases hgone.symm.trans hsession
  · intro hdeleting
    refine ⟨createdSids_append _ _ (hinv.deleting sid hdeleting).1, fun session hsession => ?_⟩
    cases hgone.symm.trans hsession

theorem StoreInv.init : StoreInv options init :=
  ⟨fun _ => rfl, nofun, nofun⟩

theorem StoreInv.step (hinv : StoreInv options before) (hok : Unrepeated before action)
    (hstep : step options before action = some after) : StoreInv options after := by
  cases action with
  | tick ms =>
      cases hstep
      exact hinv.tick ms
  | create bytes values =>
      dsimp only [Sessions.step] at hstep
      split at hstep
      · rename_i hlength
        cases hstep
        exact hinv.create hlength hok
      · cases hstep
  | get sid =>
      cases hstep
      exact hinv.get sid
  | del index =>
      obtain ⟨sid, hsid, rfl⟩ := Option.map_eq_some_iff.mp hstep
      exact hinv.del hsid
  | destroy sid =>
      cases hstep
      exact hinv.destroy sid

theorem storeInv_of_reach (hreach : Reach (step options) Unrepeated init state) :
    StoreInv options state :=
  hreach.invariant _ .init fun _ _ _ _ hinv hok hstep => hinv.step hok hstep

end Marketplace.Sessions
