import Ploydok.Database.Exclusion
import Ploydok.Database.LinkSecrets

/-! What a failed rotation leaves behind. The row, the secrets of the linked apps and the
engine should all agree on one pair of credentials, old or new, and the lock should be free. -/

namespace Ploydok.Database

open Effect Effect.Prog List Option

structure Creds where
  (user pwd : String)
  url : ConnUrl
  user_url : url.user = some user
  pwd_url : url.secret = some pwd

namespace Creds

def stored (c : Creds) (kind : DbKind) (containerId : String) : Stored :=
  ⟨kind,some containerId,some c.url,some c.pwd⟩

def vars (c : Creds) (kind : DbKind) (link : Link) : List (String × String) :=
  buildSecretVars kind c.url link.envPrefix c.user c.pwd

theorem ext_url {c c' : Creds} (h : c.url = c'.url) : c = c' := by
  obtain ⟨user,pwd,url,hu,hp⟩ := c
  obtain ⟨user',pwd',url',hu',hp'⟩ := c'
  obtain rfl : url = url' := h
  obtain rfl := some.inj (hu.symm.trans hu')
  obtain rfl := some.inj (hp.symm.trans hp')
  rfl

end Creds

/-- The links of the database `id`. -/
def Core.linksOf (k : Core) (id : String) : List Link := k.links.filter (·.databaseId = id)

def SecretsHold (id : String) (kind : DbKind) (k : Core) (c : Creds) : Prop :=
  ∀ link ∈ k.linksOf id, Holds (k.vars id link.appId) (c.vars kind link)

def EngineHolds (kind : DbKind) (containerId : String) (k : Core) (c : Creds) : Prop :=
  c.pwd ∈ k.users containerId (userKey kind c.user)

structure Agree (id : String) (kind : DbKind) (containerId : String) (k : Core) (c : Creds) :
    Prop where
  row : k.row = some (c.stored kind containerId)
  secrets : SecretsHold id kind k c
  engine : EngineHolds kind containerId k c

def Consistent (id : String) (k : Core) : Prop :=
  ∃ kind containerId c, Agree id kind containerId k c

variable {c : Creds} {kind : DbKind} {containerId id : String} {k : Core}

theorem consistent_iff {id : String} (h : k.row = some (c.stored kind containerId)) :
    Consistent id k ↔ SecretsHold id kind k c ∧ EngineHolds kind containerId k c := by
  constructor
  · rintro ⟨kind',containerId',c',h'⟩
    have he : c'.stored kind' containerId' = c.stored kind containerId :=
      some.inj (h'.row.symm.trans h)
    obtain rfl : kind' = kind := congrArg Stored.kind he
    obtain rfl : containerId' = containerId := some.inj (congrArg Stored.containerId he)
    obtain rfl : c' = c := Creds.ext_url (some.inj (congrArg Stored.connectionString he))
    exact ⟨h'.secrets,h'.engine⟩
  · rintro ⟨hs,he⟩
    exact ⟨kind,containerId,c,h,hs,he⟩

theorem not_secretsHold {c' : Creds}
    (h : SecretsHold id kind k c') (hne : c.pwd ≠ c'.pwd) (hl : k.linksOf id ≠ []) :
    ¬SecretsHold id kind k c := by
  intro hc
  obtain ⟨link,hmem⟩ := exists_mem_of_ne_nil _ hl
  exact hne ((hc link hmem).unique (h link hmem) (password_mem_buildSecretVars ..)
    (password_mem_buildSecretVars ..))

/-- The plan takes the database from `old` to `new`. -/
structure Turns (p : Plan) (old new : Creds) : Prop where
  oldConnStr : p.oldConnStr = some old.url
  oldUser : p.oldUser = old.user
  oldPwd : p.oldPwd = old.pwd
  newConnStr : p.newConnStr = some new.url
  newUser : p.newUser = new.user
  newPwd : p.newPwd = new.pwd
  redis : p.kind = .redis → new.user = "default_new"
  fresh : new.pwd ≠ old.pwd

section Rotation

variable (p : Plan) (old : Creds) (links : List Link) (drops : List (String × String))

def Lost (k : Core) : Prop := p.kind = .redis ∧ old.user = "default_new" ∧ k.drops ≠ drops

def Sound (s : Logged) : Prop :=
  Consistent p.databaseId (s.1.core p.databaseId) ↔
    (links = [] ∨ hurt s.2 = false) ∧ ¬Lost p old drops (s.1.core p.databaseId)

/-- The row has the credentials `row`, the secrets have `secrets`, and no user has been
dropped. -/
structure At (row secrets : Creds) (s : Logged) : Prop where
  row : (s.1.core p.databaseId).row = some (row.stored p.kind p.containerId)
  secrets : SecretsHold p.databaseId p.kind (s.1.core p.databaseId) secrets
  links : (s.1.core p.databaseId).linksOf p.databaseId = links
  drops : (s.1.core p.databaseId).drops = drops

variable {p old links drops} {row secrets : Creds} {s s' : Logged}

theorem At.congr (h : At p links drops row secrets s)
    (hc : s'.1.core p.databaseId = s.1.core p.databaseId) : At p links drops row secrets s' :=
  ⟨hc ▸ h.row,hc ▸ h.secrets,hc ▸ h.links,hc ▸ h.drops⟩

theorem At.not_lost (h : At p links drops row secrets s) :
    ¬Lost p old drops (s.1.core p.databaseId) :=
  fun hl => hl.2.2 h.drops

theorem Sound.congr (h : Sound p old links drops s)
    (hc : s'.1.core p.databaseId = s.1.core p.databaseId) (hh : hurt s'.2 = hurt s.2) :
    Sound p old links drops s' := by
  unfold Sound
  rw [hc,hh]
  exact h

theorem At.sound (h : At p links drops c c s)
    (he : EngineHolds p.kind p.containerId (s.1.core p.databaseId) c)
    (hh : hurt s.2 = false) : Sound p old links drops s := by
  have hcons : Consistent p.databaseId (s.1.core p.databaseId) := ⟨_,_,c,h.row,h.secrets,he⟩
  exact iff_of_true hcons ⟨.inr hh,h.not_lost⟩

theorem At.sound_torn (h : At p links drops row secrets s) (hne : row.pwd ≠ secrets.pwd)
    (he : EngineHolds p.kind p.containerId (s.1.core p.databaseId) row)
    (hh : hurt s.2 = true) : Sound p old links drops s := by
  unfold Sound
  rw [consistent_iff h.row]
  by_cases hl : links = []
  · refine iff_of_true ⟨fun link hmem => ?_,he⟩ ⟨.inl hl,h.not_lost⟩
    rw [h.links,hl] at hmem
    cases hmem
  · refine iff_of_false (fun hc => not_secretsHold h.secrets hne (h.links ▸ hl) hc.1) fun hc => ?_
    rcases hc.1 with hl' | hh'
    · exact hl hl'
    · rw [hh] at hh'
      cases hh'

theorem sound_half (hrow : (s.1.core p.databaseId).row = some (c.stored p.kind p.containerId))
    (hlinks : (s.1.core p.databaseId).linksOf p.databaseId = links)
    (hbad : ¬SecretsHold p.databaseId p.kind (s.1.core p.databaseId) c)
    (hh : hurt s.2 = true) : Sound p old links drops s := by
  unfold Sound
  rw [consistent_iff hrow]
  refine iff_of_false (fun hc => hbad hc.1) fun hc => ?_
  rcases hc.1 with hl | hh'
  · refine hbad fun link hmem => ?_
    rw [hlinks,hl] at hmem
    cases hmem
  · rw [hh] at hh'
    cases hh'

/-- Quiet statements other than the reads of links and projects. -/
def Query.harmless : Query → Bool
  | .readLinks _ | .readProjects _ => false
  | o => o.quiet

variable {o : Query}

theorem quiet_of_harmless (h : o.harmless = true) : o.quiet = true := by
  cases o <;> simp_all [Query.harmless,Query.quiet]

theorem failedAccess_of_harmless (h : o.harmless = true)
    (r : Except RotationError o.Res) : failedAccess ⟨o,r⟩ = false := by
  cases o <;> first | rfl | simp_all [Query.harmless,Query.quiet]

variable {out : Outside} {s : Logged} {α : Type} {newPwd : String} {row : Row}

theorem post_harmless (id : String) {prog : DbProg α} (hp : prog.Calls (Query.harmless · = true)) :
    Post (dbLog out) prog s fun _ s' => s'.1.core id = s.1.core id ∧ hurt s'.2 = hurt s.2 := by
  refine post_of_calls hp
    (fun s' : Logged => s'.1.core id = s.1.core id ∧ hurt s'.2 = hurt s.2) ?_ ⟨rfl,rfl⟩
  rintro o s1 r s2 ho ⟨hc,hh⟩ ⟨hs,hlog⟩
  refine ⟨(core_quiet hs (quiet_of_harmless ho)).trans hc,?_⟩
  rw [hlog,hurt_concat,failedAccess_of_harmless ho,Bool.or_false,hh]

attribute [local simp] failedAccess

theorem post_execInDbContainer (id : String) {cmd : Command} :
    Post (dbLog out) (execInDbContainer containerId kind cmd) s fun r s' => hurt s'.2 = hurt s.2 ∧
        ((s'.1.core id = s.1.core id ∧ ∀ res, r = .ok res → res.exitCode ≠ 0) ∨
          (admits kind cmd ((s.1.core id).users containerId) = true ∧
            s'.1.core id = (s.1.core id).ran containerId kind cmd)) := by
  unfold execInDbContainer
  split
  · exact post_throw ⟨rfl,.inl ⟨rfl,by simp⟩⟩
  · refine post_query fun r w hs => ⟨by simp,?_⟩
    rcases core_exec id hs with h | ⟨ha,hc,-⟩
    · exact .inl h
    · exact .inr ⟨ha,hc⟩

/-- A step that only reads: it fails as an access to the database, or not at all. -/
def ReadOnly (id : String) (s : Logged) (P : α → Prop) (r : Except RotationError α)
    (s' : Logged) : Prop :=
  s'.1.core id = s.1.core id ∧
    match r with
    | .ok a => P a ∧ hurt s'.2 = hurt s.2
    | .error _ => hurt s'.2 = true

theorem post_readLinks : Post (dbLog out) (query (.readLinks id)) s
      (ReadOnly id s fun links => links = (s.1.core id).linksOf id) := by
  refine post_query fun r w hs => ?_
  obtain ⟨hc,hok⟩ := core_readLinks hs
  refine ⟨hc,?_⟩
  cases r with
  | ok links => exact ⟨hok links rfl,by simp⟩
  | error e => simp

theorem post_readProjectMap (id : String) {appIds : List String} :
    Post (dbLog out) (readProjectMap appIds) s (ReadOnly id s fun _ => True) := by
  unfold readProjectMap
  split
  · exact post_ret ⟨rfl,trivial,rfl⟩
  · refine post_query fun r w hs => ⟨core_quiet hs rfl,?_⟩
    cases r with
    | ok rows => exact ⟨trivial,by simp⟩
    | error e => simp

variable {out : Outside} {new victim survivor : Creds}

variable (old) in
theorem post_eachLink {secrets : Creds} (hf : ∀ projects link, f projects link =
      putSecrets p.databaseId projects (c.vars p.kind link) link) (h : At p links drops c secrets s)
    (he : EngineHolds p.kind p.containerId (s.1.core p.databaseId) c) (hne : c.pwd ≠ secrets.pwd)
    (happs : (links.map (·.appId)).Nodup) :
    Post (dbLog out) (eachLink p.databaseId f) s fun r s' =>
      match r with
      | .ok ids => At p links drops c c s' ∧ hurt s'.2 = hurt s.2 ∧
          (s'.1.core p.databaseId).users = (s.1.core p.databaseId).users ∧
          ids = links.map (·.appId)
      | .error _ => Sound p old links drops s' := by
  refine post_bind _ post_readLinks ?_ ?_
  · rintro _ s1 ⟨hc1,rfl,hh1⟩
    refine post_bind _ (post_readProjectMap p.databaseId) ?_ ?_
    · rintro projects s2 ⟨hc2,-,hh2⟩
      have h2 : At p links drops c secrets s2 := h.congr (hc2.trans hc1)
      have hnot : ∀ link ∈ links, ¬Holds ((s2.1.core p.databaseId).vars p.databaseId link.appId)
          (c.vars p.kind link) := by
        intro link hmem hold
        exact hne (hold.unique (h2.secrets link (h2.links ▸ hmem))
          (password_mem_buildSecretVars ..) (password_mem_buildSecretVars ..))
      have hput : f projects = fun link =>
          putSecrets p.databaseId projects (c.vars p.kind link) link := funext (hf projects)
      rw [hput,h.links]
      refine post_bind _ (post_putAllSecrets projects (c.vars p.kind)
        (fun link => nodup_keys_buildSecretVars ..) links happs) ?_ ?_
      · rintro _ s3 ⟨hsame,hall,hh3⟩
        have hrest := hsame.rest
        refine post_ret ⟨⟨?_,?_,?_,?_⟩,hh3.trans (hh2.trans hh1),?_,rfl⟩
        · rw [hrest]
          exact h2.row
        · intro link hmem
          rw [hrest] at hmem
          exact hall link (h2.links ▸ hmem)
        · rw [hrest]
          exact h2.links
        · rw [hrest]
          exact h2.drops
        · rw [hrest,hc2,hc1]
      · rintro e s3 ⟨hsame,hh3,hhalf⟩
        obtain ⟨link,hmem,hbad⟩ := hhalf hnot
        have hrest := hsame.rest
        have hlinks : (s3.1.core p.databaseId).linksOf p.databaseId = links := by
          rw [hrest]
          exact h2.links
        refine sound_half ?_ hlinks (fun hs => hbad (hs link (hlinks ▸ hmem))) hh3
        rw [hrest]
        exact h2.row
    · rintro e s2 ⟨hc2,hh2⟩
      have hc := hc2.trans hc1
      exact (h.congr hc).sound_torn hne (hc ▸ he) hh2
  · rintro e s1 ⟨hc1,hh1⟩
    exact (h.congr hc1).sound_torn hne (hc1 ▸ he) hh1

structure Ready (p : Plan) (old new : Creds) (links : List Link)
    (drops : List (String × String)) (s : Logged) : Prop where
  place : At p links drops new new s
  engineOld : EngineHolds p.kind p.containerId (s.1.core p.databaseId) old
  engineNew : EngineHolds p.kind p.containerId (s.1.core p.databaseId) new
  clean : hurt s.2 = false

def Apart (p : Plan) (old new : Creds) : Prop :=
  userKey p.kind new.user = userKey p.kind old.user → p.kind = .redis ∧ old.user = "default_new"

theorem userKey_default_new (hk : p.kind = .redis) (hu : c.user = "default_new") :
    userKey p.kind c.user = "default_new" := by
  rw [hk,hu]
  rfl

theorem apart_of_admits (ht : Turns p old new) {users : Users}
    (ha : admits p.kind (.createUser p.oldUser p.newUser p.newPwd p.database) users = true)
    (he : old.pwd ∈ users (userKey p.kind old.user)) : Apart p old new := by
  intro hkey
  by_cases hk : p.kind = .redis
  · refine ⟨hk,?_⟩
    rw [userKey_default_new hk (ht.redis hk),hk] at hkey
    exact userKey_redis_eq_iff.mp hkey.symm
  · rw [← ht.oldUser] at he hkey
    rw [← ht.newUser] at hkey
    exact absurd hkey (userKey_ne_of_admits hk ha he)

theorem EngineHolds.created {oldUser newUser newPwd database : String}
    (h : EngineHolds p.kind p.containerId k c) :
    EngineHolds p.kind p.containerId
      (k.ran p.containerId p.kind (.createUser oldUser newUser newPwd database)) c := by
  simp only [EngineHolds,Core.ran,Function.update_self]
  exact mem_runCommand_createUser_of_mem h

theorem At.created {row secrets : Creds} (h : At p links drops row secrets s)
    (hc : s'.1.core p.databaseId = (s.1.core p.databaseId).ran p.containerId p.kind
      (.createUser oldUser newUser newPwd database)) : At p links drops row secrets s' := by
  refine ⟨?_,?_,?_,?_⟩ <;> rw [hc]
  · exact h.row
  · exact h.secrets
  · exact h.links
  · simpa [Core.ran] using h.drops

theorem post_addNewPassword (ht : Turns p old new) (h : At p links drops old old s)
    (he : EngineHolds p.kind p.containerId (s.1.core p.databaseId) old) (hh : hurt s.2 = false) :
    Post (dbLog out)
      (addNewPassword p.containerId p.kind p.oldUser p.newUser p.newPwd p.database) s fun r s' =>
      At p links drops old old s' ∧
      EngineHolds p.kind p.containerId (s'.1.core p.databaseId) old ∧ hurt s'.2 = false ∧
      (r = .ok () → Apart p old new ∧
        EngineHolds p.kind p.containerId (s'.1.core p.databaseId) new) := by
  refine post_bind _ (post_execInDbContainer p.databaseId) ?_ ?_
  · rintro res s1 ⟨hh1,hres⟩
    rcases hres with ⟨hc,hcode⟩ | ⟨ha,hc⟩
    · rw [if_pos (hcode res rfl)]
      exact post_throw ⟨h.congr hc,hc ▸ he,hh1.trans hh,by simp⟩
    · have hnew : EngineHolds p.kind p.containerId (s1.1.core p.databaseId) new := by
        rw [hc,EngineHolds,← ht.newUser,← ht.newPwd]
        simp only [Core.ran,Function.update_self]
        exact mem_runCommand_createUser
      have hold : EngineHolds p.kind p.containerId (s1.1.core p.databaseId) old := hc ▸ he.created
      split
      · exact post_throw ⟨h.created hc,hold,hh1.trans hh,by simp⟩
      · exact post_ret ⟨h.created hc,hold,hh1.trans hh,fun _ => ⟨apart_of_admits ht ha he,hnew⟩⟩
  · rintro e s1 ⟨hh1,⟨hc,-⟩ | ⟨-,hc⟩⟩
    · exact ⟨h.congr hc,hc ▸ he,hh1.trans hh,by simp⟩
    · exact ⟨h.created hc,hc ▸ he.created,hh1.trans hh,by simp⟩

theorem engineHolds_dropped (ht : Turns p old new) (hap : Apart p old new)
    (hpair : (victim = old ∧ survivor = new) ∨ (victim = new ∧ survivor = old))
    (byUser database : String) (he : EngineHolds p.kind p.containerId k survivor) :
    EngineHolds p.kind p.containerId
        (k.ran p.containerId p.kind (.dropUser victim.user byUser database)) survivor ↔
      ¬(p.kind = .redis ∧ old.user = "default_new") := by
  have hkeys : userKey p.kind survivor.user = userKey p.kind victim.user ↔
      userKey p.kind new.user = userKey p.kind old.user := by
    rcases hpair with ⟨rfl,rfl⟩ | ⟨rfl,rfl⟩
    · exact Iff.rfl
    · exact eq_comm
  simp only [EngineHolds,Core.ran,Function.update_self]
  by_cases hkey : userKey p.kind survivor.user = userKey p.kind victim.user
  · obtain ⟨hk,hu⟩ := hap (hkeys.mp hkey)
    have hvictim : victim.user = "default_new" := by
      rcases hpair with ⟨rfl,-⟩ | ⟨rfl,-⟩
      · exact hu
      · exact ht.redis hk
    refine iff_of_false ?_ (not_not_intro ⟨hk,hu⟩)
    rw [hkey]
    simp [runCommand,hvictim]
  · rw [runCommand_dropUser_of_ne hkey]
    refine iff_of_true he ?_
    rintro ⟨hk,hu⟩
    refine hkey (hkeys.mpr ?_)
    rw [userKey_default_new hk (ht.redis hk),userKey_default_new hk hu]

theorem post_dropOldUser (ht : Turns p old new) (hap : Apart p old new) {user byUser : String}
    (huser : user = victim.user)
    (hpair : (victim = old ∧ survivor = new) ∨ (victim = new ∧ survivor = old))
    (h : At p links drops survivor survivor s)
    (he : EngineHolds p.kind p.containerId (s.1.core p.databaseId) survivor)
    (hh : hurt s.2 = false) :
    Post (dbLog out) (dropOldUser p.containerId p.kind user byUser p.database) s
      fun _ s' => Sound p old links drops s' := by
  subst huser
  refine post_bind (fun _ s' => Sound p old links drops s')
    (post_mono (post_execInDbContainer p.databaseId) ?_)
    (fun _ _ hs => post_ret hs) (fun _ _ hs => hs)
  rintro r s1 ⟨hh1,⟨hc,-⟩ | ⟨-,hc⟩⟩
  · exact (h.congr hc).sound (hc ▸ he) (hh1.trans hh)
  · have hrow : (s1.1.core p.databaseId).row = some (survivor.stored p.kind p.containerId) := by
      rw [hc]
      exact h.row
    have hdrops : (s1.1.core p.databaseId).drops ≠ drops := by
      rw [hc,← h.drops]
      simp [Core.ran]
    have hsec : SecretsHold p.databaseId p.kind (s1.1.core p.databaseId) survivor := by
      rw [hc]
      exact h.secrets
    have heng := engineHolds_dropped ht hap hpair byUser p.database he
    rw [← hc] at heng
    unfold Sound
    rw [consistent_iff hrow,heng]
    constructor
    · rintro ⟨-,hn⟩
      exact ⟨.inr (hh1.trans hh),fun hl => hn ⟨hl.1,hl.2.1⟩⟩
    · rintro ⟨-,hl⟩
      exact ⟨hsec,fun hn => hl ⟨hn.1,hn.2,hdrops⟩⟩

theorem post_updateCredentials {row secrets : Creds} (h : At p links drops row secrets s) :
    Post (dbLog out) (query (.updateCredentials p.databaseId c.pwd (some c.url))) s
      fun r s' => hurt s'.2 = hurt s.2 ∧
        (s'.1.core p.databaseId).users = (s.1.core p.databaseId).users ∧
        match r with
        | .ok _ => At p links drops c secrets s'
        | .error _ => s'.1.core p.databaseId = s.1.core p.databaseId := by
  refine post_query fun r w hs => ⟨by simp,?_⟩
  rcases core_updateCredentials hs with ⟨hc,e,rfl⟩ | ⟨hc,a,rfl⟩
  · exact ⟨congrArg Core.users hc,hc⟩
  · refine ⟨by rw [hc]; rfl,⟨?_,?_,?_,?_⟩⟩ <;> rw [hc]
    · simp [Core.setCredentials,h.row,Creds.stored]
    · exact h.secrets
    · exact h.links
    · exact h.drops

theorem EngineHolds.congr {k' : Core} (h : EngineHolds p.kind p.containerId k c)
    (hu : k'.users = k.users) : EngineHolds p.kind p.containerId k' c := by
  unfold EngineHolds
  rw [hu]
  exact h

theorem post_writeCredentials (ht : Turns p old new) (h : At p links drops old old s)
    (he : EngineHolds p.kind p.containerId (s.1.core p.databaseId) old)
    (hh : hurt s.2 = false) (happs : (links.map (·.appId)).Nodup) :
    Post (dbLog out) (writeCredentials p) s fun r s' =>
      match r with
      | .ok ids => Ready p old new links drops s' ∧ Apart p old new ∧ ids = links.map (·.appId)
      | .error _ => Sound p old links drops s' := by
  refine post_bind _ (post_addNewPassword ht h he hh) ?_ ?_
  swap
  · rintro e s1 ⟨h1,he1,hh1,-⟩
    exact h1.sound he1 hh1
  rintro _ s1 ⟨h1,he1,hh1,hnew⟩
  obtain ⟨hap,hn1⟩ := hnew rfl
  refine post_bind _ (post_harmless p.databaseId (calls_query rfl)) ?_ ?_
  swap
  · rintro e s2 ⟨hc,hh2⟩
    exact (h1.congr hc).sound (hc ▸ he1) (hh2.trans hh1)
  rintro _ s2 ⟨hc2,hh2⟩
  have h2 := h1.congr hc2
  rw [← hc2] at he1 hn1
  rw [ht.newPwd,ht.newConnStr]
  refine post_bind _ (post_updateCredentials h2) ?_ ?_
  swap
  · rintro e s3 ⟨hh3,-,hc⟩
    exact (h2.congr hc).sound (hc ▸ he1) ((hh3.trans hh2).trans hh1)
  rintro _ s3 ⟨hh3,hu3,h3⟩
  refine post_mono (post_eachLink old ?_ h3 (hn1.congr hu3) ht.fresh happs) ?_
  · intro projects link
    rw [rewriteLinkSecrets_eq ht.newConnStr,ht.newUser,ht.newPwd]
    rfl
  · intro r s4 h4
    cases r with
    | error e => exact h4
    | ok ids =>
      obtain ⟨h4,hh4,hu4,rfl⟩ := h4
      refine ⟨⟨h4,he1.congr (hu4.trans hu3),hn1.congr (hu4.trans hu3),?_⟩,hap,rfl⟩
      rw [hh4,hh3,hh2,hh1]

theorem post_restoreCredentials (ht : Turns p old new) (hap : Apart p old new)
    (h : Ready p old new links drops s) (happs : (links.map (·.appId)).Nodup) (ids : List String) :
    Post (dbLog out) (restoreCredentials p ids) s fun _ s' => Sound p old links drops s' := by
  unfold restoreCredentials
  rw [ht.oldPwd,ht.oldConnStr]
  refine post_bind _ (post_updateCredentials h.place) ?_ ?_
  swap
  · rintro e s1 ⟨hh1,-,hc⟩
    exact (h.place.congr hc).sound (hc ▸ h.engineNew) (hh1.trans h.clean)
  rintro _ s1 ⟨hh1,hu1,h1⟩
  refine post_bind _ (post_eachLink old ?_ h1 (h.engineOld.congr hu1) ht.fresh.symm happs) ?_ ?_
  · intro projects link
    rw [restoreLinkSecrets_eq ht.oldConnStr,ht.oldUser,ht.oldPwd]
    rfl
  · rintro ids' s2 ⟨h2,hh2,hu2,-⟩
    refine post_bind _ (post_harmless p.databaseId (calls_forEach fun _ _ =>
      calls_tryCatch (calls_query rfl) fun _ => calls_ret _)) ?_ ?_
    · rintro _ s3 ⟨hc3,hh3⟩
      refine post_dropOldUser ht hap ht.newUser (.inr ⟨rfl,rfl⟩) (h2.congr hc3) ?_ ?_
      · rw [hc3]
        exact h.engineOld.congr (hu2.trans hu1)
      · rw [hh3,hh2,hh1,h.clean]
    · rintro e s3 ⟨hc3,hh3⟩
      refine (h2.congr hc3).sound ?_ ?_
      · rw [hc3]
        exact h.engineOld.congr (hu2.trans hu1)
      · rw [hh3,hh2,hh1,h.clean]
  · intro e s2 h2
    exact h2

theorem post_sound {prog : DbProg α} (hp : prog.Calls (Query.harmless · = true))
    (h : Sound p old links drops s) :
    Post (dbLog out) prog s fun _ s' => Sound p old links drops s' :=
  post_mono (post_harmless p.databaseId hp) fun _ _ hs => h.congr hs.1 hs.2

theorem post_rollbackRotation (ht : Turns p old new) (hap : Apart p old new)
    (h : Ready p old new links drops s) (happs : (links.map (·.appId)).Nodup) (ids : List String) :
    Post (dbLog out) (rollbackRotation p ids) s fun _ s' => Sound p old links drops s' := by
  refine post_bind (fun _ s' => Sound p old links drops s') (post_attempt ?_) ?_ (fun _ _ h => h)
  · exact post_tryCatch _ (post_restoreCredentials ht hap h happs ids) (fun _ _ h => h)
      (fun _ _ h => post_ret h)
  · intro r s1 h1
    exact post_sound (calls_bind (calls_query rfl) fun _ => calls_ofExcept r) h1

theorem Ready.congr {s' : Logged} (h : Ready p old new links drops s)
    (hc : s'.1.core p.databaseId = s.1.core p.databaseId) (hh : hurt s'.2 = hurt s.2) :
    Ready p old new links drops s' :=
  ⟨h.place.congr hc,hc ▸ h.engineOld,hc ▸ h.engineNew,hh.trans h.clean⟩

theorem Ready.sound (h : Ready p old new links drops s) : Sound p old links drops s :=
  h.place.sound h.engineNew h.clean

theorem post_redeployLinkedApps (ht : Turns p old new) (hap : Apart p old new)
    (h : Ready p old new links drops s) (happs : (links.map (·.appId)).Nodup) (ids : List String) :
    Post (dbLog out) (redeployLinkedApps p ids) s fun r s' =>
      match r with
      | .ok _ => Ready p old new links drops s'
      | .error _ => Sound p old links drops s' := by
  refine post_bind _ (post_harmless p.databaseId (calls_forEach fun _ _ => calls_query rfl)) ?_ ?_
  swap
  · rintro e s1 ⟨hc,hh⟩
    exact (h.congr hc hh).sound
  rintro _ s1 ⟨hc1,hh1⟩
  have h1 := h.congr hc1 hh1
  split
  swap
  · exact post_ret h1
  refine post_bind _ (post_harmless p.databaseId (calls_query rfl)) ?_ ?_
  swap
  · rintro e s2 ⟨hc,hh⟩
    exact (h1.congr hc hh).sound
  rintro pollStart s2 ⟨hc2,hh2⟩
  have h2 := h1.congr hc2 hh2
  refine post_bind _ (post_harmless p.databaseId
    (calls_mono (calls_pollUntilRunning ..) fun o h => by
      cases o <;> simp_all [Query.polls,Query.harmless,Query.quiet])) ?_ ?_
  swap
  · rintro e s3 ⟨hc,hh⟩
    exact (h2.congr hc hh).sound
  rintro allHealthy s3 ⟨hc3,hh3⟩
  have h3 := h2.congr hc3 hh3
  split
  · refine post_bind _ (post_rollbackRotation ht hap h3 happs ids) ?_ (fun _ _ h => h)
    intro _ s4 h4
    exact post_throw h4
  · exact post_ret h3

theorem post_completeRotation (ht : Turns p old new) (hap : Apart p old new)
    (h : Ready p old new links drops s) (ids : List String) :
    Post (dbLog out) (completeRotation p ids) s fun _ s' => Sound p old links drops s' := by
  refine post_bind _ (post_dropOldUser ht hap ht.oldUser (.inl ⟨rfl,rfl⟩) h.place
    h.engineNew h.clean) ?_ (fun _ _ h => h)
  intro _ s1 h1
  refine post_sound ?_ h1
  refine calls_bind (calls_query rfl) fun rotatedAt => ?_
  refine calls_bind (calls_query rfl) fun _ => ?_
  refine calls_bind ?_ fun _ => calls_ret _
  exact calls_tryCatch (calls_query rfl) fun _ => calls_ret _

theorem post_rotateLocked (ht : Turns p old new) (h : At p links drops old old s)
    (he : EngineHolds p.kind p.containerId (s.1.core p.databaseId) old)
    (hh : hurt s.2 = false) (happs : (links.map (·.appId)).Nodup) :
    Post (dbLog out) (rotateLocked p) s fun _ s' => Sound p old links drops s' := by
  refine post_bind _ (post_writeCredentials ht h he hh happs) ?_ (fun _ _ h => h)
  rintro ids s1 ⟨h1,hap,rfl⟩
  refine post_bind _ (post_redeployLinkedApps ht hap h1 happs _) ?_ (fun _ _ h => h)
  intro _ s2 h2
  exact post_completeRotation ht hap h2 _

end Rotation

theorem post_lock (id : String) {prog : DbProg α}
    (hp : prog.Calls (Inner id)) (h : s.1.lockOf id = some (!s.2.any unlocks)) :
    Post (dbLog out) prog s fun _ s' => s'.1.lockOf id = some (!s'.2.any unlocks) := by
  refine post_of_calls hp (fun s' : Logged => s'.1.lockOf id = some (!s'.2.any unlocks)) ?_ h
  rintro o s1 r s2 ho h1 ⟨hs,hlog⟩
  rw [lockOf_dbSem id hs,lockEffect_inner ⟨o,r⟩ ho,h1,hlog]
  by_cases hu : unlocks ⟨o,r⟩ = true <;> simp [hu]

def Creds.next (c : Creds) (kind : DbKind) (newPwd : String) : Creds :=
  { user := newUserOf kind c.user, pwd := newPwd
    url := rebuildConnectionString c.url newPwd (newUserOf kind c.user)
    user_url := user_rebuildConnectionString .., pwd_url := secret_rebuildConnectionString .. }

theorem turns_planOf (hurl : row.connectionString = some c.url) (hne : newPwd ≠ c.pwd) :
    Turns (planOf id row containerId c.pwd c.user newPwd) c (c.next row.kind newPwd) where
  oldConnStr := hurl
  oldUser := rfl
  oldPwd := rfl
  newConnStr := by simp [Plan.newConnStr,planOf,hurl,Creds.next]
  newUser := rfl
  newPwd := rfl
  redis h := if_pos h
  fresh := hne

theorem failedAccess_of_preamble {ev : DbEvent} (h : ev.op ∈ preamble id) :
    failedAccess ev = false := by
  obtain ⟨o,r⟩ := ev
  simp only [preamble,mem_cons,not_mem_nil,or_false] at h
  rcases h with rfl | rfl | rfl <;> rfl

theorem hurt_eq_false {log : List DbEvent} :
    hurt log = false ↔ ∀ ev ∈ log, failedAccess ev = false := by
  simp [hurt]

theorem sound_locked {old : Creds} (log : List DbEvent)
    (hagree : Agree id row.kind containerId (w.core id) old)
    (hurl : row.connectionString = some old.url) (hfresh : newPwd ≠ old.pwd)
    (hone : (((w.core id).linksOf id).map (·.appId)).Nodup) (hlock : w.lockOf id = some true)
    (hclean : hurt log = false) (hheld : log.any unlocks = false)
    (hrun : (Prog.tryCatch (rotateLocked (planOf id row containerId old.pwd old.user newPwd))
      (releaseLock id)).Runs (dbSem out) w tr r w') :
    Sound (planOf id row containerId old.pwd old.user newPwd) old ((w.core id).linksOf id)
        (w.core id).drops (w', log ++ tr) ∧
      w'.lockOf id = some (!(log ++ tr).any unlocks) := by
  have hlogged := runs_logged (l := log) hrun
  set p := planOf id row containerId old.pwd old.user newPwd with hp
  constructor
  · have hat : At p ((w.core id).linksOf id) (w.core id).drops old old (w, log) :=
      ⟨hagree.row,hagree.secrets,rfl,rfl⟩
    have hbody : Post (dbLog out) (rotateLocked p) (w, log) _ :=
      post_rotateLocked (turns_planOf hurl hfresh) hat hagree.engine hclean hone
    exact post_tryCatch _ hbody (fun _ _ h => h)
      (fun e _ h => post_sound (calls_releaseLock e rfl) h) _ _ _ hlogged
  · refine post_lock id (calls_tryCatch (calls_rotateLocked p rfl) fun e =>
      calls_releaseLock e ⟨rfl,rfl⟩) ?_ _ _ _ hlogged
    simp [hlock,hheld]

namespace Shop

def creds (user pwd : String) (hu : (url user pwd).user = some user)
    (hp : (url user pwd).secret = some pwd) : Creds :=
  ⟨user,pwd,url user pwd,hu,hp⟩

def old : Creds := creds "ploydok" "old" rfl rfl

theorem agree_linked : Agree "shop" .postgres "c1" (linked.core "shop") old := by
  refine ⟨rfl,fun l hl => ?_,mem_singleton.mpr rfl⟩
  obtain rfl : l = link := mem_singleton.mp hl
  have hself : Holds (old.vars .postgres link) (old.vars .postgres link) :=
    holds_self (nodup_keys_buildSecretVars ..)
  exact hself

def noQueue : Query → Bool
  | .enqueue _ => true
  | _ => false

def noInserts : Query → Bool
  | .insertSecret _ => true
  | _ => false

def newPassword : DbEvent → Bool
  | ⟨.generatePassword,.ok pwd⟩ => pwd != "old"
  | _ => true

theorem fresh_of_newPassword {tr : List DbEvent} (h : tr.all newPassword = true) (pwd : String)
    (hpwd : ⟨.generatePassword,.ok pwd⟩ ∈ tr) : pwd ≠ old.pwd :=
  bne_iff_ne.mp (all_eq_true.mp h _ hpwd)

end Shop

open Shop

end Ploydok.Database
