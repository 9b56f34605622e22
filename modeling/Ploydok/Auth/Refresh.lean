import Ploydok.Auth.Sessions
import Mathlib.Data.Fin.VecNotation
import Mathlib.Data.List.Nodup

/-! The laws of refresh tokens, for any number of requests in any order of their statements.
Whoever presents a rotated token revokes the session exactly if the last rotation of the
session, not that of the token, is long enough ago. -/

namespace Ploydok.Auth.Sessions

open Effect Function List Pool
open Effect.Prog hiding throw

def World.hashOf (w : World) (sessionId : String) : Option String :=
  (w.sessions sessionId).map (·.refreshTokenHash)

def World.Revoked (w : World) (sessionId : String) : Prop :=
  ∃ row, w.sessions sessionId = some row ∧ row.revokedAt.isSome = true

structure Keeps (w w' : World) : Prop where
  rotations : w'.rotations = w.rotations
  hashOf : ∀ sessionId, w'.hashOf sessionId = w.hashOf sessionId
  revoked : ∀ sessionId, w.Revoked sessionId → w'.Revoked sessionId

theorem Keeps.refl (w : World) : Keeps w w := ⟨rfl,fun _ => rfl,fun _ h => h⟩

variable {sessionId : String} {w : World}

attribute [local simp] World.hashOf

attribute [local simp] World.put

theorem keeps_revoke (hrow : w.sessions sessionId = some row) (now : Int) :
    Keeps w (w.put sessionId (World.revoke row now)) := by
  refine ⟨rfl,fun other => ?_,fun other h => ?_⟩
  · by_cases hother : other = sessionId
    · subst hother
      simp [World.revoke,hrow]
    · simp [hother]
  · by_cases hother : other = sessionId
    · subst hother
      exact ⟨World.revoke row now,by simp,rfl⟩
    · obtain ⟨row',hrow',hrevoked⟩ := h
      exact ⟨row',by simp [hother,hrow'],hrevoked⟩

theorem keeps_revokeOthers (w : World) (userId current : String) (now : Int) :
    Keeps w { w with sessions := fun sessionId =>
      (w.sessions sessionId).map (World.revokeOther userId current now sessionId) } := by
  have hfields : ∀ sessionId row,
      (World.revokeOther userId current now sessionId row).refreshTokenHash = row.refreshTokenHash ∧
        (row.revokedAt.isSome = true →
          (World.revokeOther userId current now sessionId row).revokedAt.isSome = true) := by
    intro sessionId row
    unfold World.revokeOther
    split_ifs
    · exact ⟨rfl,fun _ => rfl⟩
    · exact ⟨rfl,id⟩
  refine ⟨rfl,fun sessionId => ?_,fun sessionId h => ?_⟩
  · simp only [World.hashOf,Option.map_map]
    congr 1
    funext row
    exact (hfields sessionId row).1
  · obtain ⟨row,hrow,hrevoked⟩ := h
    exact ⟨_,by simp [hrow],(hfields sessionId row).2 hrevoked⟩

inductive Change (w : World) (o : Call) : World → Prop
  | rotation {sessionId currentHash newHash : String} {now : Int} {row : SessionRow}
      (ho : o = .rotate sessionId currentHash newHash now)
      (hrow : w.sessions sessionId = some row) (hhash : row.refreshTokenHash = currentHash)
      (hvalid : row.revokedAt = none) :
      Change w o { w.put sessionId (World.rotated row newHash now) with
        rotations := w.rotations ++ [⟨sessionId,currentHash,newHash,w.now⟩] }
  | other {w' : World} (h : Keeps w w') : Change w o w'

theorem change_serve (o : Call) (w : World) : Change w o (serve o w).2 := by
  cases o with
  | rotate sessionId currentHash newHash now =>
    simp only [serve]
    split
    · exact .other (.refl w)
    · next row hfilter =>
      obtain ⟨hrow,hcond⟩ := Option.filter_eq_some_iff.mp hfilter
      obtain ⟨hhash,hvalid⟩ := of_decide_eq_true hcond
      exact .rotation rfl hrow hhash (Option.isNone_iff_eq_none.mp hvalid)
  | revokeSession sessionId now =>
    simp only [serve]
    split
    · exact .other (.refl w)
    · next row hrow => exact .other (keeps_revoke hrow now)
  | revokeSessionFamily sessionId now =>
    simp only [serve]
    split
    · exact .other (.refl w)
    · next row hfilter =>
      exact .other (keeps_revoke (Option.filter_eq_some_iff.mp hfilter).1 now)
  | revokeOtherSessions userId current now => exact .other (keeps_revokeOthers w userId current now)
  | elapse ms => exact .other ⟨rfl,fun _ => rfl,fun _ h => h⟩
  | dateNow | selectUnrevoked | selectRotation | selectSession | selectUser =>
    exact .other (.refl w)

theorem change_of_sem (h : Prog.ofHandler serve o w r w') : Change w o w' := by
  have hserve : serve o w = (r, w') := h
  have hchange := change_serve o w
  rwa [hserve] at hchange

structure Consistent (w : World) : Prop where
  current : ∀ ρ ∈ w.rotations, ∃ hash, w.hashOf ρ.sessionId = some hash ∧ hash ≠ ρ.old
  once : (w.rotations.map fun ρ => (ρ.sessionId, ρ.old)).Nodup

def Seen (w : World) (token : String) : Prop :=
  (∃ sessionId, w.hashOf sessionId = some token) ∨ ∃ ρ ∈ w.rotations, ρ.old = token

theorem Keeps.consistent (h : Keeps w w') (hw : Consistent w) : Consistent w' where
  current ρ hρ := by
    rw [h.rotations] at hρ
    rw [h.hashOf]
    exact hw.current ρ hρ
  once := by
    rw [h.rotations]
    exact hw.once

section Rotation

variable {w : World} {sessionId newHash : String} {now : Int} {row : SessionRow}

abbrev World.afterRotation (w : World) (sessionId newHash : String) (now : Int)
    (row : SessionRow) : World :=
  { w.put sessionId (World.rotated row newHash now) with
    rotations := w.rotations ++ [⟨sessionId,row.refreshTokenHash,newHash,w.now⟩] }

theorem hashOf_afterRotation (other : String) :
    (w.afterRotation sessionId newHash now row).hashOf other =
      if other = sessionId then some newHash else w.hashOf other := by
  by_cases hother : other = sessionId
  · subst hother
    simp [World.rotated]
  · simp [hother]

theorem seen_afterRotation (hrow : w.sessions sessionId = some row)
    (h : Seen (w.afterRotation sessionId newHash now row) token) :
    token = newHash ∨ Seen w token := by
  have hold : w.hashOf sessionId = some row.refreshTokenHash := by simp [hrow]
  rcases h with ⟨other,hhash⟩ | ⟨ρ,hρ,rfl⟩
  · rw [hashOf_afterRotation] at hhash
    split_ifs at hhash
    · exact .inl (Option.some.inj hhash).symm
    · exact .inr (.inl ⟨other,hhash⟩)
  · rcases mem_append.mp hρ with hρ | hρ
    · exact .inr (.inr ⟨ρ,hρ,rfl⟩)
    · rw [mem_singleton.mp hρ]
      exact .inr (.inl ⟨sessionId,hold⟩)

theorem consistent_afterRotation (hw : Consistent w) (hrow : w.sessions sessionId = some row)
    (hnew : ¬ Seen w newHash) : Consistent (w.afterRotation sessionId newHash now row) := by
  have hold : w.hashOf sessionId = some row.refreshTokenHash := by simp [hrow]
  constructor
  · intro ρ hρ
    rw [hashOf_afterRotation]
    split_ifs with hsession
    · refine ⟨newHash,rfl,?_⟩
      rintro rfl
      rcases mem_append.mp hρ with hρ | hρ
      · exact hnew (.inr ⟨ρ,hρ,rfl⟩)
      · rw [mem_singleton.mp hρ] at hnew
        exact hnew (.inl ⟨sessionId,hold⟩)
    · rcases mem_append.mp hρ with hρ | hρ
      · exact hw.current ρ hρ
      · rw [mem_singleton.mp hρ] at hsession
        exact absurd rfl hsession
  · rw [map_append]
    refine hw.once.append (nodup_singleton _) ?_
    rintro pair hpair hnewPair
    obtain ⟨ρ,hρ,rfl⟩ := mem_map.mp hpair
    obtain ⟨hsession,htoken⟩ := Prod.mk.inj (mem_singleton.mp hnewPair)
    obtain ⟨hash,hhash,hne⟩ := hw.current ρ hρ
    rw [hsession,hold] at hhash
    exact hne (by rw [← Option.some.inj hhash,htoken])

theorem revoked_afterRotation (hrow : w.sessions sessionId = some row)
    (hvalid : row.revokedAt = none) (h : w.Revoked other) :
    other ≠ sessionId ∧ (w.afterRotation sessionId newHash now row).Revoked other := by
  obtain ⟨row',hrow',hrevoked⟩ := h
  have hne : other ≠ sessionId := by
    rintro rfl
    rw [hrow] at hrow'
    cases hrow'
    simp [hvalid] at hrevoked
  exact ⟨hne,row',by simp [hne,hrow'],hrevoked⟩

end Rotation

/-- The token a request has generated, and whether it has been used. -/
abbrev rotationProtocol : Protocol SessionSig String where
  State := String × Bool
  next s ev :=
    match ev.op with
    | .rotate _ _ newHash _ => if s.2 = false ∧ newHash = s.1 then some (s.1, true) else none
    | _ => some s

def Call.Still : Call → Prop
  | .rotate .. => False
  | _ => True

theorem next_still (h : o.Still) : rotationProtocol.next s ⟨o,r⟩ = some s := by
  cases o with
  | rotate => exact h.elim
  | _ => rfl

theorem follows_still {p : SessionProg α} (hp : p.Calls Call.Still)
    (s : String × Bool) : p.Follows rotationProtocol s fun s' _ => s' = s := by
  refine follows_of_calls (A := rotationProtocol) (· = s) hp ?_ rfl
  rintro _ o r rfl ho
  exact ⟨_,next_still ho,rfl⟩

theorem calls_verifyRefreshToken (sessionId rawToken : String) :
    (verifyRefreshToken sessionId rawToken).Calls Call.Still := by
  refine calls_bind (calls_perform trivial) fun found => ?_
  split
  · exact calls_ret _
  · refine calls_bind (calls_perform trivial) fun now => ?_
    split
    · exact calls_ret _
    · exact calls_ret _

theorem calls_rejectReplay (sessionId : String) : (rejectReplay sessionId).Calls Call.Still :=
  calls_bind (calls_bind (calls_perform trivial) fun _ =>
    calls_perform trivial) fun _ => calls_ret _

theorem calls_rejectToken (sessionId : String) : (rejectToken sessionId).Calls Call.Still := by
  refine calls_bind (calls_perform trivial) fun current => ?_
  split
  · refine calls_bind (calls_perform trivial) fun now => ?_
    split_ifs
    · exact calls_ret _
    · exact calls_rejectReplay _
  · exact calls_rejectReplay _

theorem follows_acceptToken (sessionId newToken : String) (session : SessionRow) :
    (acceptToken sessionId newToken session).Follows rotationProtocol (newToken, false)
      fun _ _ => True := by
  refine follows_bind (fun _ _ => True) ?_ ?_ fun _ _ _ => trivial
  · refine follows_perform_bind (fun now => ⟨_,rfl,?_⟩) fun e => ⟨_,rfl,trivial⟩
    refine follows_perform_bind (fun updated => ⟨_,if_pos ⟨rfl,rfl⟩,trivial⟩)
      fun e => ⟨_,if_pos ⟨rfl,rfl⟩,trivial⟩
  · intro s newRefreshToken _
    split
    · trivial
    · refine follows_mono (follows_still ?_ s) fun _ _ _ => trivial
      refine calls_bind (calls_perform trivial) fun found => ?_
      split_ifs
      · exact calls_ret _
      · exact calls_ret _

theorem follows_program (newToken : String) (party : Party) :
    (party.program newToken).Follows rotationProtocol (newToken, false) fun _ _ => True := by
  have hstill : ∀ {p : SessionProg Answer}, p.Calls Call.Still →
      p.Follows rotationProtocol (newToken, false) fun _ _ => True :=
    fun hp => follows_mono (follows_still hp _) fun _ _ _ => trivial
  cases party with
  | refresh refreshCookie =>
    simp only [Party.program,refresh]
    split
    · trivial
    split
    · trivial
    refine follows_bind _ (follows_still (calls_verifyRefreshToken _ _) _) ?_ fun _ _ _ => trivial
    rintro _ session rfl
    split
    · exact hstill (calls_rejectToken _)
    · exact follows_acceptToken _ _ _
  | logout | revokeOthers =>
    exact hstill (calls_bind (calls_bind (calls_perform trivial) fun _ =>
      calls_perform trivial) fun _ => calls_ret _)
  | deleteSession userId currentSessionId targetId =>
    simp only [Party.program,deleteSession]
    split_ifs
    · trivial
    · trivial
    refine hstill (calls_bind (calls_perform trivial) fun found => ?_)
    split_ifs
    · exact calls_bind (calls_bind (calls_perform trivial) fun _ =>
        calls_perform trivial) fun _ => calls_ret _
    · exact calls_ret _
  | clock ms =>
    exact hstill (calls_bind (calls_perform trivial) fun _ => calls_ret _)

/-- Requests over tables with a consistent history. The tokens that are generated are new. -/
structure Scenario (ι : Type) where
  world : World
  parties : ι → Party
  generated : ι → String
  consistent : Consistent world
  injective : Injective generated
  fresh : ∀ i, ¬ Seen world (generated i)

variable {ι : Type} [DecidableEq ι]

abbrev Reaches : Pool SessionSig String Answer ι World →
    Pool SessionSig String Answer ι World → Prop :=
  Pool.Reach (Prog.ofHandler serve) fun _ _ => True

abbrev Scenario.start (S : Scenario ι) : Pool SessionSig String Answer ι World :=
  .start S.world fun i => (S.parties i).program (S.generated i)

variable {c : Pool SessionSig String Answer ι World}

theorem consistent_of_reaches (S : Scenario ι)
    (hreach : Reaches S.start c) : Consistent c.world := by
  refine (reach_phased rotationProtocol (fun _ _ => True)
    (fun i => follows_program (S.generated i) (S.parties i))
    (fun c φ => Consistent c.world ∧
      ∀ i, (φ i).1 = S.generated i ∧ ((φ i).2 = false → ¬ Seen c.world (S.generated i)))
    ⟨S.consistent,fun i => ⟨rfl,fun _ => S.fresh i⟩⟩ ?_ hreach).elim fun φ h => h.2.1
  rintro c φ i o k r w' s' - ⟨hw,hfresh⟩ - - hsem hnext -
  cases change_of_sem hsem with
  | other hkeeps =>
    -- neither the request nor its token changes, unless the token is marked as used
    have hs' : s' = φ i ∨ s' = ((φ i).1, true) := by
      simp only [rotationProtocol] at hnext
      split at hnext
      · split_ifs at hnext
        exact .inr (Option.some.inj hnext).symm
      · exact .inl (Option.some.inj hnext).symm
    refine ⟨hkeeps.consistent hw,fun j => ?_⟩
    simp only [advance_world,Seen,hkeeps.rotations,hkeeps.hashOf]
    by_cases hij : j = i
    · subst hij
      rw [update_self]
      rcases hs' with rfl | rfl
      · exact hfresh j
      · exact ⟨(hfresh j).1,fun h => by cases h⟩
    · rw [update_of_ne hij]
      exact hfresh j
  | @rotation sessionId currentHash newHash now row ho hrow hhash hvalid =>
    subst ho hhash
    simp only [rotationProtocol] at hnext
    split_ifs at hnext with hcond
    obtain ⟨hunused,rfl⟩ := hcond
    obtain rfl := Option.some.inj hnext
    have hnew : ¬ Seen c.world (φ i).1 := by
      rw [(hfresh i).1]
      exact (hfresh i).2 hunused
    refine ⟨consistent_afterRotation hw hrow hnew,fun j => ?_⟩
    by_cases hij : j = i
    · subst hij
      rw [update_self]
      exact ⟨(hfresh j).1,fun h => by cases h⟩
    · rw [update_of_ne hij]
      refine ⟨(hfresh j).1,fun hj hseen => ?_⟩
      rcases seen_afterRotation hrow hseen with heq | hseen
      · rw [(hfresh i).1] at heq
        exact hij (S.injective heq)
      · exact (hfresh j).2 hj hseen

def Accepts (w : World) (sessionId token : String) : Prop :=
  ∃ row, ((verifyRefreshToken sessionId token).exec serve w).1 = .ok (some row)

theorem Accepts.spec (h : Accepts w sessionId token) :
    w.hashOf sessionId = some token ∧ ¬ w.Revoked sessionId := by
  obtain ⟨row,hrow⟩ := h
  unfold verifyRefreshToken at hrow
  rw [exec_bind,exec_perform] at hrow
  simp only [serve] at hrow
  cases hfilter : (w.sessions sessionId).filter (·.revokedAt.isNone) with
  | none => simp [hfilter] at hrow
  | some session =>
    obtain ⟨hsession,hvalid⟩ := Option.filter_eq_some_iff.mp hfilter
    rw [hfilter] at hrow
    rw [exec_bind,exec_perform] at hrow
    simp only [serve] at hrow
    split_ifs at hrow with hexpired htoken
    · cases hrow
    · refine ⟨by simp [hsession,htoken],?_⟩
      rintro ⟨row',hrow',hrevoked⟩
      rw [hsession] at hrow'
      cases hrow'
      simp [Option.isNone_iff_eq_none.mp hvalid] at hrevoked
    · cases hrow

theorem revoked_of_reaches (h : c.world.Revoked sessionId) (hreach : Reaches c c') :
    c'.world.Revoked sessionId ∧ c'.world.rotations.filter (·.sessionId = sessionId) =
        c.world.rotations.filter (·.sessionId = sessionId) := by
  induction hreach with
  | refl => exact ⟨h,rfl⟩
  | step _ _ hstep ih =>
    obtain ⟨hrevoked,hsame⟩ := ih
    obtain ⟨-,hsem⟩ := hstep
    simp only [advance_world]
    cases change_of_sem hsem with
    | other hkeeps =>
      rw [hkeeps.rotations]
      exact ⟨hkeeps.revoked _ hrevoked,hsame⟩
    | rotation ho hrow hhash hvalid =>
      obtain ⟨hne,hrevoked'⟩ := revoked_afterRotation hrow hvalid hrevoked
      refine ⟨hrevoked',?_⟩
      rw [filter_append,hsame]
      simp [Ne.symm hne]

/-! ### Rotated tokens -/

def RevokedIn (log : List (Event SessionSig String)) (sessionId : String) : Prop :=
  ∃ now, (⟨.revokeSessionFamily sessionId now,.ok ()⟩ : Event SessionSig String) ∈ log

/-- When the request looked again, the session was gone, revoked, never rotated, or last rotated at
least the grace period before. -/
def FoundStale (log : List (Event SessionSig String)) (sessionId : String) : Prop :=
  ∃ current, (⟨.selectRotation sessionId,.ok current⟩ : Event SessionSig String) ∈ log ∧
    ∀ rotatedAt, current = some ⟨some rotatedAt,none⟩ →
      ∃ now, (⟨.dateNow .grace,.ok now⟩ : Event SessionSig String) ∈ log ∧
        GRACE_MS ≤ now - rotatedAt

variable {log : List (Event SessionSig String)} {answer : Answer} {token : String} {i : ι}

theorem traced_rejectReplay (h : (rejectReplay sessionId).Traced log (.ret answer)) :
    ∃ now, log = [⟨.dateNow .revocation,.ok now⟩,⟨.revokeSessionFamily sessionId now,.ok ()⟩] := by
  obtain ⟨_,log1,log2,rfl,hrevoke,hret⟩ := Prog.traced_bind h
  obtain ⟨now,log3,rfl,hrest⟩ := Prog.traced_perform_bind hrevoke
  obtain ⟨rfl,-⟩ := Prog.traced_ret.mp hret
  cases log3 with
  | nil => cases hrest
  | cons ev log3 =>
    obtain ⟨r,rfl,hrest⟩ := hrest
    cases r with
    | ok u =>
      obtain ⟨rfl,-⟩ := Prog.traced_ret.mp hrest
      exact ⟨now,rfl⟩
    | error e => cases log3 <;> cases hrest

theorem revokedIn_iff_of_rejectToken (h : (rejectToken sessionId).Traced log (.ret answer)) :
    RevokedIn log sessionId ↔ FoundStale log sessionId := by
  obtain ⟨current,log1,rfl,hrest⟩ := Prog.traced_perform_bind h
  split at hrest
  · next rotatedAt =>
    obtain ⟨now,log2,rfl,hend⟩ := Prog.traced_perform_bind hrest
    split_ifs at hend with hgrace
    · obtain ⟨rfl,-⟩ := Prog.traced_ret.mp hend
      have hnot : ¬ GRACE_MS ≤ now - rotatedAt := Int.not_le.mpr hgrace
      simp [RevokedIn,FoundStale,hnot]
    · obtain ⟨t,rfl⟩ := traced_rejectReplay hend
      have hlate : GRACE_MS ≤ now - rotatedAt := Int.not_lt.mp hgrace
      simp [RevokedIn,FoundStale,hlate]
  · next hother =>
    obtain ⟨t,rfl⟩ := traced_rejectReplay hrest
    have hne : ∀ rotatedAt, current ≠ some ⟨some rotatedAt,none⟩ := hother
    simp [RevokedIn,FoundStale,hne]

theorem traced_verifyRefreshToken (h : (verifyRefreshToken sessionId token).Traced log (.ret found)) :
    (∀ ev ∈ log, ev.op = .selectUnrevoked sessionId ∨ ev.op = .dateNow .expiry) ∧
      ∀ session, found = some session → session.refreshTokenHash = token ∧
        (⟨.selectUnrevoked sessionId,.ok (some session)⟩ : Event SessionSig String) ∈ log := by
  obtain ⟨row,log1,rfl,hrest⟩ := Prog.traced_perform_bind h
  cases row with
  | none =>
    obtain ⟨rfl,rfl⟩ := Prog.traced_ret.mp hrest
    simp
  | some session =>
    obtain ⟨now,log2,rfl,hend⟩ := Prog.traced_perform_bind hrest
    split at hend
    · obtain ⟨rfl,rfl⟩ := Prog.traced_ret.mp hend
      simp
    · obtain ⟨rfl,rfl⟩ := Prog.traced_ret.mp hend
      refine ⟨by simp,fun session' hfound => ?_⟩
      split_ifs at hfound with htoken
      cases hfound
      exact ⟨htoken,by simp⟩

def Party.Presents (party : Party) (sessionId token : String) : Prop :=
  ∃ cookie, party = .refresh (some cookie) ∧ splitRefreshCookie cookie = some (sessionId, token)

theorem program_of_presents {party : Party} (h : party.Presents sessionId token) (newToken : String) :
    party.program newToken = (verifyRefreshToken sessionId token).bind fun session =>
      match session with
      | none => rejectToken sessionId
      | some session => acceptToken sessionId newToken session := by
  obtain ⟨cookie,rfl,hsplit⟩ := h
  have hne : cookie ≠ "" := by
    rintro rfl
    simp [splitRefreshCookie] at hsplit
  have hcookie : (some cookie).filter (fun x => decide (x ≠ "")) = some cookie := by
    simp [Option.filter,hne]
  unfold Party.program refresh
  dsimp only
  rw [hcookie]
  dsimp only
  split
  · next hnone => cases hsplit.symm.trans hnone
  · next hsome =>
    cases hsplit.symm.trans hsome
    rfl

theorem revokedIn_append_iff
    (h : ∀ ev ∈ log1, ev.op = .selectUnrevoked sessionId ∨ ev.op = .dateNow .expiry) :
    (RevokedIn (log1 ++ log2) sessionId ↔ RevokedIn log2 sessionId) ∧
      (FoundStale (log1 ++ log2) sessionId ↔ FoundStale log2 sessionId) := by
  have hskip : ∀ ev : Event SessionSig String, ev.op ≠ .selectUnrevoked sessionId →
      ev.op ≠ .dateNow .expiry → (ev ∈ log1 ++ log2 ↔ ev ∈ log2) := by
    intro ev hselect hclock
    refine ⟨fun hmem => ?_,mem_append_right _⟩
    rcases mem_append.mp hmem with hmem | hmem
    · rcases h ev hmem with hop | hop
      · exact absurd hop hselect
      · exact absurd hop hclock
    · exact hmem
  constructor
  · refine exists_congr fun now => hskip _ ?_ ?_
    · simp
    · simp
  · refine exists_congr fun current => and_congr (hskip _ ?_ ?_) ?_
    · simp
    · simp
    · refine forall_congr' fun rotatedAt => imp_congr_right fun _ => exists_congr fun now =>
        and_congr_left' (hskip _ ?_ ?_)
      · simp
      · simp

theorem mem_log_advance (h : ev ∈ (c.advance j ev' p w).log i) : ev ∈ c.log i ∨ ev = ev' := by
  by_cases hij : i = j
  · subst hij
    simpa using h
  · simp only [advance_log,update_of_ne hij] at h
    exact .inl h

section Serve

variable {w w' : World} {sessionId hash : String}

theorem hash_of_selectUnrevoked
    (hserve : serve (.selectUnrevoked sessionId) w = (.ok (some row), w'))
    (hhash : w.hashOf sessionId = some hash) : row.refreshTokenHash = hash := by
  have hfound : (w.sessions sessionId).filter (·.revokedAt.isNone) = some row :=
    Except.ok.inj (congrArg Prod.fst hserve)
  rw [World.hashOf,(Option.filter_eq_some_iff.mp hfound).1] at hhash
  exact Option.some.inj hhash

theorem revoked_of_revokeSessionFamily
    (hserve : serve (.revokeSessionFamily sessionId now) w = (r, w'))
    (hhash : w.hashOf sessionId = some hash) : w'.Revoked sessionId := by
  obtain ⟨row,hrow,-⟩ := Option.map_eq_some_iff.mp hhash
  simp only [serve,hrow] at hserve
  cases hvalid : row.revokedAt with
  | none =>
    simp only [Option.filter,hvalid,Option.isNone_none,↓reduceIte,Prod.mk.injEq] at hserve
    rw [← hserve.2]
    exact ⟨World.revoke row now,by simp,rfl⟩
  | some t =>
    simp only [Option.filter,hvalid,Option.isNone_some,Bool.false_eq_true,↓reduceIte,
      Prod.mk.injEq] at hserve
    rw [← hserve.2]
    exact ⟨row,hrow,by simp [hvalid]⟩

end Serve

variable {c1 c2 : Pool SessionSig String Answer ι World} {ρ : Rotation}

theorem rotations_of_reaches (hρ : ρ ∈ c1.world.rotations) (hreach : Reaches c1 c2) :
    ρ ∈ c2.world.rotations := by
  induction hreach with
  | refl => exact hρ
  | step _ _ hstep ih =>
    obtain ⟨-,hsem⟩ := hstep
    cases change_of_sem hsem with
    | other hkeeps => exact hkeeps.rotations ▸ ih
    | rotation => exact mem_append_left _ ih

theorem reads_of_rotated (S : Scenario ι) (hstart : Reaches S.start c1) (hlog : c1.log i = [])
    (hρ : ρ ∈ c1.world.rotations) (hreach : Reaches c1 c2) :
    (∀ row, (⟨.selectUnrevoked ρ.sessionId,.ok (some row)⟩ : Event SessionSig String) ∈
        c2.log i → row.refreshTokenHash ≠ ρ.old) ∧
      (RevokedIn (c2.log i) ρ.sessionId → c2.world.Revoked ρ.sessionId) := by
  induction hreach with
  | refl => exact ⟨by simp [hlog],by simp [hlog,RevokedIn]⟩
  | @step c c' j hreach _ hstep ih =>
    obtain ⟨hread,hrevoked⟩ := ih
    have hnext : Reaches c c' := Pool.Reach.refl.step trivial hstep
    obtain ⟨hash,hhash,hne⟩ :=
      (consistent_of_reaches S (hstart.trans hreach)).current ρ (rotations_of_reaches hρ hreach)
    obtain ⟨hc,hsem⟩ := hstep
    refine ⟨fun row hrow => ?_,fun hin => ?_⟩
    · rcases mem_log_advance hrow with hold | hnew
      · exact hread row hold
      · cases hnew
        exact fun heq => hne (by rw [← heq,hash_of_selectUnrevoked hsem hhash])
    · obtain ⟨now,hin⟩ := hin
      rcases mem_log_advance hin with hold | hnew
      · exact (revoked_of_reaches (hrevoked ⟨now,hold⟩) hnext).1
      · cases hnew
        exact revoked_of_revokeSessionFamily hsem hhash

/-! ### The four laws -/

namespace Scenario

variable (S : Scenario ι)

def OneSuccessor : Prop :=
  ∀ c, Reaches S.start c → (c.world.rotations.map fun ρ => (ρ.sessionId, ρ.old)).Nodup

/-- At any time one token of a session is accepted at most, and no rotated one. -/
def OneAccepted : Prop :=
  ∀ c sessionId token token', Reaches S.start c → Accepts c.world sessionId token →
    (Accepts c.world sessionId token' → token = token') ∧
      ∀ ρ ∈ c.world.rotations, ρ.sessionId = sessionId → ρ.old ≠ token

def RevokedForGood : Prop :=
  ∀ c c' sessionId, Reaches S.start c → c.world.Revoked sessionId → Reaches c c' →
    (∀ token, ¬ Accepts c'.world sessionId token) ∧
      c'.world.rotations.filter (·.sessionId = sessionId) =
        c.world.rotations.filter (·.sessionId = sessionId)

/-- Between `c1` and `c2` the request presents a token that was rotated at least the grace period
before, and is answered. -/
structure LateReplay (i : ι) (ρ : Rotation) (c1 c2 : Pool SessionSig String Answer ι World) :
    Prop where
  start : Reaches S.start c1
  presents : (S.parties i).Presents ρ.sessionId ρ.old
  begins : c1.log i = []
  rotated : ρ ∈ c1.world.rotations
  late : ρ.time + GRACE_MS ≤ c1.world.now
  run : Reaches c1 c2
  answered : ∃ answer, c2.prog i = .ret answer

end Scenario

def RevokedBy (c : Pool SessionSig String Answer ι World) (i : ι) (sessionId : String) : Prop :=
  RevokedIn (c.log i) sessionId ∧ c.world.Revoked sessionId

theorem oneAccepted (S : Scenario ι) : S.OneAccepted := by
  intro c sessionId token token' hreach haccepts
  obtain ⟨htoken,-⟩ := haccepts.spec
  refine ⟨fun haccepts' => ?_,?_⟩
  · obtain ⟨htoken',-⟩ := haccepts'.spec
    rw [htoken] at htoken'
    exact Option.some.inj htoken'
  · rintro ρ hρ rfl rfl
    obtain ⟨hash,hhash,hne⟩ := (consistent_of_reaches S hreach).current ρ hρ
    rw [htoken] at hhash
    exact hne (Option.some.inj hhash).symm

theorem revokedForGood (S : Scenario ι) : S.RevokedForGood := by
  intro c c' sessionId _ hrevoked hreach
  obtain ⟨hrevoked',hsame⟩ := revoked_of_reaches hrevoked hreach
  exact ⟨fun token haccepts => haccepts.spec.2 hrevoked',hsame⟩

theorem revokedBy_iff {S : Scenario ι} (h : S.LateReplay i ρ c1 c2) :
    RevokedBy c2 i ρ.sessionId ↔ FoundStale (c2.log i) ρ.sessionId := by
  obtain ⟨hread,hrevoked⟩ := reads_of_rotated S h.start h.begins h.rotated h.run
  obtain ⟨answer,hanswer⟩ := h.answered
  have htraced := (h.start.trans h.run).traced i
  rw [hanswer,program_of_presents h.presents] at htraced
  obtain ⟨found,log1,log2,hlog,hverify,hrest⟩ := Prog.traced_bind htraced
  obtain ⟨hops,hfound⟩ := traced_verifyRefreshToken hverify
  cases found with
  | some session =>
    -- the row that was read has another hash
    obtain ⟨htoken,hmem⟩ := hfound session rfl
    exact absurd htoken (hread session (by rw [hlog]; exact mem_append_left _ hmem))
  | none =>
    have hiff := revokedIn_iff_of_rejectToken hrest
    obtain ⟨hleft,hright⟩ := revokedIn_append_iff hops
    rw [hlog] at hrevoked
    unfold RevokedBy
    rw [hlog,hright,← hiff,hleft]
    exact ⟨fun hboth => hboth.1,fun hin => ⟨hin,hrevoked (hleft.mpr hin)⟩⟩

/-- A token has one successor, one token is accepted at a time, a revoked session stays so; a
rotated token that is presented late revokes the session exactly if the request found it stale. -/
theorem refresh_laws_iff (S : Scenario ι) : S.OneSuccessor ∧ S.OneAccepted ∧ S.RevokedForGood ∧
      ∀ i ρ c1 c2, S.LateReplay i ρ c1 c2 →
        (RevokedBy c2 i ρ.sessionId ↔ FoundStale (c2.log i) ρ.sessionId) :=
  ⟨fun _ hreach => (consistent_of_reaches S hreach).once,oneAccepted S,revokedForGood S,
    fun _ _ _ _ h => revokedBy_iff h⟩

/-- A session with the token `t1`. -/
def freshSession : World where
  now := 0
  sessions sessionId :=
    if sessionId = "s1" then some ⟨"u1","t1",0,none,none,604800000⟩ else none
  users := ["u1"]
  rotations := []

/-- The token `t1` is rotated; 100 s later its successor is; 5 s later `t1` is presented. -/
def stolenToken : Scenario (Fin 5) where
  world := freshSession
  parties := ![.refresh (some "s1:t1"), .clock 100000, .refresh (some "s1:t2"), .clock 5000,
    .refresh (some "s1:t1")]
  generated i := "t" ++ toString (i.val + 2)
  consistent := ⟨by simp [freshSession],by simp [freshSession]⟩
  injective := by
    have hinj : ∀ i j : Fin 5, "t" ++ toString (i.val + 2) = "t" ++ toString (j.val + 2) →
        i = j := by decide +kernel
    exact fun i j => hinj i j
  fresh := by
    have hne : ∀ i : Fin 5, "t" ++ toString (i.val + 2) ≠ "t1" := by decide +kernel
    rintro i (⟨sessionId,hhash⟩ | ⟨ρ,hρ,-⟩)
    · simp only [World.hashOf,freshSession] at hhash
      split_ifs at hhash
      · exact hne i (Option.some.inj hhash).symm
      · cases hhash
    · cases hρ

def beforeReplay : Pool SessionSig String Answer (Fin 5) World :=
  [0, 0, 0, 0, 0, 1, 2, 2, 2, 2, 2, 3].foldl (tick serve) stolenToken.start

def afterReplay : Pool SessionSig String Answer (Fin 5) World :=
  [4, 4, 4, 4].foldl (tick serve) beforeReplay

/-- The stolen token is answered with a conflict, and the session goes on. -/
theorem stolen_token_not_revoked :
    ¬ (stolenToken.OneSuccessor ∧ stolenToken.OneAccepted ∧ stolenToken.RevokedForGood ∧
      ∀ i ρ c1 c2, stolenToken.LateReplay i ρ c1 c2 → c2.world.Revoked ρ.sessionId) := by
  rintro ⟨-,-,-,hlaw⟩
  have hschedule : ∀ (sched : List (Fin 5)) c, Reaches c (sched.foldl (tick serve) c) :=
    fun sched c => reach_schedule (fun _ _ => rfl) c sched
      (admits_of_forall (fun _ _ => trivial) c sched)
  have hok : (afterReplay.prog 4).outcome.map Except.isOk = some true := by decide +kernel
  have hanswered : ∃ answer, afterReplay.prog 4 = .ret answer := by
    cases hprog : afterReplay.prog 4 with
    | ret answer => exact ⟨answer,rfl⟩
    | throw e => simp [hprog,Prog.outcome,Except.isOk,Except.toBool] at hok
    | call o k => simp [hprog,Prog.outcome] at hok
  have hempty : (beforeReplay.log 4).isEmpty = true := by decide +kernel
  obtain ⟨row,hrow,hrevoked⟩ := hlaw 4 ⟨"s1","t1","t2",0⟩ beforeReplay afterReplay
    { start := hschedule _ _
      presents := ⟨"s1:t1",rfl,by decide +kernel⟩
      begins := isEmpty_iff.mp hempty
      rotated := by decide +kernel
      late := by decide +kernel
      run := hschedule _ _
      answered := hanswered }
  have hvalid : (afterReplay.world.sessions "s1").all (·.revokedAt.isNone) = true := by
    decide +kernel
  rw [hrow] at hvalid
  simp only [Option.all_some,Option.isNone_iff_eq_none] at hvalid
  simp [hvalid] at hrevoked

end Ploydok.Auth.Sessions
