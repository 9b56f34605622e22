import Mathlib.Data.List.Induction

/-! The dispatcher of notifications, `notify/index.ts`. An event goes to the channels of the
user the caller names, once a minute for each user, event and commit. -/

namespace Ploydok.Notify

/-- The events of builds, deploys, backups, advisories and repairs. The rotations of secrets, whose
callers name other users, are left out. -/
inductive NotificationEvent where
  | buildStarted | buildSucceeded | buildFailed | deploySucceeded | deployFailed | backupSucceeded
  | backupFailed | cveDetected | appAutohealed | appAutohealFailed | imageAutoUpdated
deriving DecidableEq

open NotificationEvent in
def NotificationEvent.text : NotificationEvent → String
  | buildStarted => "build.started"
  | buildSucceeded => "build.succeeded"
  | buildFailed => "build.failed"
  | deploySucceeded => "deploy.succeeded"
  | deployFailed => "deploy.failed"
  | backupSucceeded => "backup.succeeded"
  | backupFailed => "backup.failed"
  | cveDetected => "cve.detected"
  | appAutohealed => "app.autohealed"
  | appAutohealFailed => "app.autoheal_failed"
  | imageAutoUpdated => "image.auto_updated"

structure Channel where
  (id ownerId : String)
  projectId : Option String
  enabled : Bool
  events : List NotificationEvent
deriving DecidableEq

/-- What a dispatch is about: an advisory of the platform goes to every owner. -/
inductive Target where
  | project (id : String)
  | platform (user : String)
deriving DecidableEq

/-- One dispatch, at a time in milliseconds. The subject is the app, database or advisory. -/
structure Dispatch where
  event : NotificationEvent
  subject : String
  commitSha : Option String
  target : Target
  time : Nat
deriving DecidableEq

def Dispatch.projectId (e : Dispatch) : Option String :=
  match e.target with
  | .project id => some id
  | .platform _ => none

variable (owner : String → String) (channels : List Channel)

/-- The user that the caller names: the backup jobs name the project. -/
def Dispatch.userId (e : Dispatch) : String :=
  match e.target with
  | .platform user => user
  | .project id =>
    if e.event = .backupSucceeded ∨ e.event = .backupFailed then id else owner id

def Dispatch.dedupKey (e : Dispatch) : String :=
  "notify:dedup:" ++ e.userId owner ++ ":" ++ e.event.text ++ ":" ++ e.commitSha.getD "none"

def Channel.Hears (user : String) (e : Dispatch) (ch : Channel) : Prop :=
  ch.ownerId = user ∧ (ch.projectId = none ∨ ch.projectId = e.projectId) ∧ ch.enabled = true ∧
    e.event ∈ ch.events

instance (user : String) (e : Dispatch) (ch : Channel) : Decidable (ch.Hears user e) :=
  inferInstanceAs (Decidable (_ ∧ _))

def Dispatch.matching (e : Dispatch) : List Channel :=
  channels.filter fun ch => ch.Hears (e.userId owner) e

/-- When each key expires. -/
abbrev Redis := String → Option Nat

/-- The channels whose adapters are handed the event. -/
def dispatch (redis : Redis) (e : Dispatch) : Redis × List Channel :=
  let matching := e.matching owner channels
  if matching = [] ∨ ∃ expiry ∈ redis (e.dedupKey owner), e.time < expiry then (redis, [])
  else (Function.update redis (e.dedupKey owner) (some (e.time + 60000)), matching)

def redisAfter (es : List Dispatch) : Redis :=
  es.foldl (fun redis e => (dispatch owner channels redis e).1) fun _ => none

def handed (earlier : List Dispatch) (e : Dispatch) : List Channel :=
  (dispatch owner channels (redisAfter owner channels earlier) e).2

/-- The two are of one kind and about the same, less than a minute apart. -/
def Repeats (e' e : Dispatch) : Prop :=
  e'.event = e.event ∧ e'.subject = e.subject ∧ e'.commitSha = e.commitSha ∧
    e.time < e'.time + 60000

def Reaches (earlier : List Dispatch) (e : Dispatch) : Prop :=
  ∀ project, e.target = .project project → ∀ ch ∈ channels, ch.Hears (owner project) e →
    ch ∈ handed owner channels earlier e ∨ ∃ before e' between,
      earlier = before ++ e' :: between ∧ Repeats e' e ∧ ch ∈ handed owner channels before e'

variable {owner channels}

theorem redisAfter_concat (es : List Dispatch) (e : Dispatch) :
    redisAfter owner channels (es ++ [e]) =
      (dispatch owner channels (redisAfter owner channels es) e).1 := by
  simp [redisAfter]

theorem matching_congr {e e' : Dispatch} (hevent : e'.event = e.event)
    (htarget : e'.target = e.target) : e'.matching owner channels = e.matching owner channels := by
  cases e
  cases e'
  cases hevent
  cases htarget
  rfl

/-- A key that is set was set by an event that all its channels were handed. -/
theorem handed_of_redisAfter (h : redisAfter owner channels es key = some expiry) :
    ∃ before e between,
      es = before ++ e :: between ∧ e.dedupKey owner = key ∧ expiry = e.time + 60000 ∧
        handed owner channels before e = e.matching owner channels := by
  induction es using List.reverseRecOn with
  | nil => cases h
  | append_singleton es e ih =>
    by_cases hold : redisAfter owner channels es key = some expiry
    · obtain ⟨before,e',between,rfl,hrest⟩ := ih hold
      exact ⟨before,e',between ++ [e],by simp,hrest⟩
    · -- the last event has set the key
      rw [redisAfter_concat] at h
      refine ⟨es,e,[],rfl,?_⟩
      unfold handed
      rw [dispatch] at h ⊢
      split_ifs at h ⊢
      · exact absurd h hold
      · dsimp only at h
        by_cases hkey : e.dedupKey owner = key
        · rw [hkey,Function.update_self] at h
          exact ⟨hkey,(Option.some.inj h).symm,rfl⟩
        · rw [Function.update_of_ne (Ne.symm hkey)] at h
          exact absurd h hold

/-- An event reaches its channels if the caller names the owner and nothing else has used its key in
the last minute. -/
theorem reaches_of_own_key (earlier : List Dispatch) (e : Dispatch)
    (huser : ∀ project, e.target = .project project → e.userId owner = owner project)
    (hkey : ∀ e' ∈ earlier, e'.dedupKey owner = e.dedupKey owner → e.time < e'.time + 60000 →
      e'.event = e.event ∧ e'.subject = e.subject ∧ e'.commitSha = e.commitSha ∧
        e'.target = e.target) : Reaches owner channels earlier e := by
  intro project hproject ch hch hhears
  have hmatching : ch ∈ e.matching owner channels := by
    rw [← huser project hproject] at hhears
    simpa [Dispatch.matching] using ⟨hch,hhears⟩
  by_cases hset : ∃ expiry ∈ redisAfter owner channels earlier (e.dedupKey owner), e.time < expiry
  · right
    obtain ⟨expiry,hexpiry,htime⟩ := hset
    obtain ⟨before,e',between,rfl,hsame,rfl,hhanded⟩ := handed_of_redisAfter hexpiry
    obtain ⟨hevent,hsubject,hcommit,htarget⟩ := hkey e' (by simp) hsame htime
    refine ⟨before,e',between,rfl,⟨hevent,hsubject,hcommit,htime⟩,?_⟩
    rwa [hhanded,matching_congr hevent htarget]
  · left
    rw [handed,dispatch,if_neg (not_or.mpr ⟨List.ne_nil_of_mem hmatching,hset⟩)]
    exact hmatching

namespace Shop

def channel : Channel := ⟨"c","ann",none,true,[.appAutohealed]⟩

def healed (app : String) (time : Nat) : Dispatch := ⟨.appAutohealed,app,none,.project "p",time⟩

end Shop

open Shop

theorem reaches_again : Reaches (fun _ => "ann") [channel] [healed "shop" 0]
    (healed "blog" 60000) :=
  reaches_of_own_key _ _ (fun _ _ => rfl) (by decide)

theorem second_app_unheard : ¬ ∀ (owner : String → String) (channels : List Channel)
    (earlier : List Dispatch) (e : Dispatch), Reaches owner channels earlier e := by
  intro h
  rcases h (fun _ => "ann") [channel] [healed "shop" 0] (healed "blog" 1000) "p" rfl
    channel (by simp) (by decide) with hnow | ⟨before,e',between,heq,⟨-,hsubject,-⟩,-⟩
  · exact absurd hnow (by decide +kernel)
  · have hmem : e' ∈ [healed "shop" 0] := by simp [heq]
    rw [List.mem_singleton.mp hmem] at hsubject
    exact absurd hsubject (by decide)

end Ploydok.Notify
