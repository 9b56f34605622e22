import Ploydok.Effect.Pool
import Ploydok.Order.Stable
import Ploydok.Text.Number
import Mathlib.Data.String.Basic

/-! The releases of a static site, `worker/handlers/build-static.ts`. A build is copied beside the
releases, renamed to its place and promoted by the rename of a link; the collection removes old
releases. Files are removed and copied one at a time. -/

namespace Ploydok.Static

open Effect Text List
open Effect.Prog hiding throw

/-! ### The directory of an app -/

inductive DirName where
  | release (sha : String)
  | staging (sha nonce : String)
  deriving DecidableEq, Repr

def DirName.text : DirName → String
  | release sha => sha
  | staging sha nonce => ".tmp-" ++ sha ++ "-" ++ nonce

/-- The directories, each with whether all its files are there, and the target of `current`. -/
structure Site where
  dirs : List (DirName × Bool)
  current : Option String
  names : (dirs.map Prod.fst).Nodup

namespace Site

def put (s : Site) (dir : DirName) (complete : Bool) : Site where
  dirs := s.dirs.filter (·.1 ≠ dir) ++ [(dir, complete)]
  current := s.current
  names := by
    rw [map_append,map_cons,map_nil,← concat_eq_append]
    refine List.Nodup.concat (fun hmem => ?_) (s.names.sublist (filter_sublist.map _))
    obtain ⟨d,hd,hname⟩ := mem_map.mp hmem
    simp [hname] at hd

def erase (s : Site) (dir : DirName) : Site where
  dirs := s.dirs.filter (·.1 ≠ dir)
  current := s.current
  names := s.names.sublist (filter_sublist.map _)

def has (s : Site) (dir : DirName) : Bool := s.dirs.any (·.1 = dir)

def Serves (s : Site) (sha : String) : Prop := s.current = some sha ∧ (.release sha, true) ∈ s.dirs

def Live (s : Site) : Prop := ∃ sha, s.Serves sha

variable {s : Site} {dir : DirName} {sha : String}

theorem Serves.put (h : s.Serves sha) (hdir : dir ≠ .release sha) (complete : Bool) :
    (s.put dir complete).Serves sha := by
  refine ⟨h.1,mem_append_left _ (mem_filter.mpr ⟨h.2,?_⟩)⟩
  simpa using hdir.symm

theorem Serves.erase (h : s.Serves sha) (hdir : dir ≠ .release sha) : (s.erase dir).Serves sha := by
  refine ⟨h.1,mem_filter.mpr ⟨h.2,?_⟩⟩
  simpa using hdir.symm

theorem mem_put (s : Site) (dir : DirName) (complete : Bool) :
    (dir, complete) ∈ (s.put dir complete).dirs :=
  mem_append_right _ (mem_singleton.mpr rfl)

theorem not_live_put (h : s.current = some sha) : ¬ (s.put (.release sha) false).Live := by
  rintro ⟨sha',hcurrent,hmem⟩
  obtain rfl := Option.some.inj (h.symm.trans hcurrent)
  simp [put] at hmem

end Site

inductive Call where
  | runShellCommand (command : String)
  | detectDefaultBuildCommand
  | statOutput
  | mkdirApp
  | unlinkFiles (dir : DirName)
  | rmdir (dir : DirName)
  | copyFirst (dir : DirName)
  | copyRest (dir : DirName)
  | renameDir (source target : DirName)
  | existsDir (dir : DirName)
  | symlink (target : String)
  | renameLink (target : String)
  | existsApp
  | readlink
  | readdir
  deriving DecidableEq

@[reducible] def Call.Res : Call → Type
  | .detectDefaultBuildCommand => Option String
  | .statOutput | .existsDir _ | .existsApp => Bool
  | .readlink => String
  | .readdir => List DirName
  | _ => Unit

abbrev Disk : Sig := ⟨Call,Call.Res⟩

abbrev DiskProg := Prog Disk String

def call (o : Call) : DiskProg o.Res := Prog.perform (S := Disk) o

/-! ### The programs -/

/-- `rm` with `recursive` and `force`. -/
def rm (dir : DirName) : DiskProg Unit := do
  call (.unlinkFiles dir)
  call (.rmdir dir)

/-- `cp` of the output directory. -/
def cp (dir : DirName) : DiskProg Unit := do
  call (.copyFirst dir)
  call (.copyRest dir)

def safeRelativePath (value label : String) : Except String String :=
  if value.toList.contains '\x00' || value.toList.contains '\\' || value.toList.head? = some '/'
  then .error (label ++ " must be a safe relative path")
  else if (value.toList.splitOn '/').any fun segment => segment = [] ∨ segment = ['.', '.']
  then .error (label ++ " must not contain empty or '..' segments")
  else .ok value

structure StaticBuildOptions where
  /-- The directory of the app under the static root. -/
  (appDir sha : String)
  /-- The clock and the random number in the name of the copy. -/
  nonce : String
  (rootDir staticOutputDir installCommand buildCommand : Option String)
  deriving DecidableEq, Repr

/-- The checks of the paths; an empty `rootDir` counts as none. -/
def StaticBuildOptions.checkPaths (opts : StaticBuildOptions) : Except String Unit := do
  match opts.rootDir with
  | some rootDir => if rootDir = "" then pure () else let _ ← safeRelativePath rootDir "rootDir"
  | none => pure ()
  let _ ← safeRelativePath (opts.staticOutputDir.getD "dist") "staticOutputDir"

def trim (command : String) : String := String.ofList (trimEnds isJsSpace command.toList)

def runInstall (opts : StaticBuildOptions) : DiskProg Unit :=
  match opts.installCommand with
  | some command => if trim command = "" then return () else call (.runShellCommand command)
  | none => return ()

def buildCommandOf (opts : StaticBuildOptions) : DiskProg (Option String) :=
  if (opts.buildCommand.map trim).getD "" = "" then call .detectDefaultBuildCommand
  else return opts.buildCommand.map trim

def runBuild (opts : StaticBuildOptions) : DiskProg Unit := do
  let buildCommand ← buildCommandOf opts
  match buildCommand with
  | some command => call (.runShellCommand command)
  | none => return ()

def promoteSha (appDir sha : String) : DiskProg Unit := do
  let found ← call (.existsDir (.release sha))
  if !found then throw ("promoteSha: missing " ++ appDir ++ "/" ++ sha)
  else do
    call (.symlink sha)
    call (.renameLink sha)

def install (appDir sha nonce : String) : DiskProg Unit := do
  rm (.release sha)
  rm (.staging sha nonce)
  cp (.staging sha nonce)
  call (.renameDir (.staging sha nonce) (.release sha))
  promoteSha appDir sha

def runStaticBuild (opts : StaticBuildOptions) : DiskProg Unit :=
  match opts.checkPaths with
  | .error message => throw message
  | .ok _ => do
    runInstall opts
    runBuild opts
    let isDirectory ← call .statOutput
    if !isDirectory then
      throw ("static output directory not found: " ++ opts.staticOutputDir.getD "dist")
    else do
      call .mkdirApp
      install opts.appDir opts.sha opts.nonce

def newestFirst (dirs : List DirName) : List DirName :=
  dirs.insertionSort fun a b => b.text ≤ a.text

/-- The link, with a `readlink` that throws taken for no link. -/
def readCurrent : DiskProg (Option String) :=
  ((call .readlink).bind fun target => .ret (some target)).tryCatch fun _ => .ret none

def collectable (keepN : Nat) (currentTarget : Option String) (entries : List DirName) :
    List DirName :=
  ((newestFirst entries).drop keepN).filter fun dir => some dir.text ≠ currentTarget

def gcOldShas (keepN : Nat) : DiskProg Nat := do
  let found ← call .existsApp
  if !found then return 0
  else do
    let currentTarget ← readCurrent
    let entries ← call .readdir
    Prog.forEach (collectable keepN currentTarget entries) rm
    return (collectable keepN currentTarget entries).length

def Responds : (o : Call) → Site → o.Res → Site → Prop
  | .unlinkFiles dir, s, _, s' => s' = if s.has dir then s.put dir false else s
  | .rmdir dir, s, _, s' => s' = s.erase dir
  | .copyFirst dir, s, _, s' => s' = s.put dir false
  | .copyRest dir, s, _, s' => s' = s.put dir true
  | .renameDir source target, s, _, s' => s.has target = false ∧ ∃ complete,
      (source, complete) ∈ s.dirs ∧ s' = (s.erase source).put target complete
  | .existsDir dir, s, r, s' => r = s.has dir ∧ s' = s
  | .renameLink target, s, _, s' => s' = { s with current := some target }
  | .existsApp, s, r, s' => (s.dirs ≠ [] → r = true) ∧ s' = s
  | .readlink, s, r, s' => s.current = some r ∧ s' = s
  | .readdir, s, r, s' => r = s.dirs.map Prod.fst ∧ s' = s
  | _, s, _, s' => s' = s

/-- The calls that answer `false` or nothing in place of an exception. -/
def Call.caught : Call → Bool
  | .detectDefaultBuildCommand | .statOutput | .existsDir _ | .existsApp => true
  | _ => false

/-- Which calls may throw: without effect, or after they were carried out. -/
structure Faults where
  throws : Call → Prop
  not_caught : ∀ o, throws o → o.caught = false

def diskSem (f : Faults) : Sem Disk String Site := fun o s r s' =>
  match r with
  | .ok a => Responds o s a s'
  | .error _ => ((f.throws o ∨ ¬ ∃ a s'', Responds o s a s'') ∧ s' = s) ∨
      (f.throws o ∧ ∃ a, Responds o s a s')

/-! ### Steps that leave a release alone -/

def Call.inert : Call → Bool
  | .unlinkFiles _ | .rmdir _ | .copyFirst _ | .copyRest _ | .renameDir _ _ | .renameLink _ => false
  | _ => true

def Call.spares (sha : String) : Call → Prop
  | .unlinkFiles dir | .rmdir dir | .copyFirst dir | .copyRest dir => dir ≠ .release sha
  | .renameDir source target => source ≠ .release sha ∧ target ≠ .release sha
  | .renameLink _ => False
  | _ => True

section Spares

variable {f : Faults} {s s' : Site} {sha t nonce appDir : String} {o : Call} {dir : DirName}
  {a : o.Res} {r : Except String o.Res} {Q : Except String o.Res → Site → Prop}

theorem eq_of_responds (ho : o.inert = true) (h : Responds o s a s') : s' = s := by
  cases o with
  | unlinkFiles | rmdir | copyFirst | copyRest | renameDir | renameLink => cases ho
  | existsDir | existsApp | readlink | readdir => exact h.2
  | runShellCommand | detectDefaultBuildCommand | statOutput | mkdirApp | symlink => exact h

theorem eq_of_inert (ho : o.inert = true) (h : diskSem f o s r s') : s' = s := by
  cases r with
  | ok a => exact eq_of_responds ho h
  | error e =>
    rcases h with ⟨-,rfl⟩ | ⟨-,a,h⟩
    · rfl
    · exact eq_of_responds ho h

theorem serves_of_responds (ho : o.spares t) (hs : s.Serves t)
    (h : Responds o s a s') : s'.Serves t := by
  cases o with
  | unlinkFiles dir =>
    obtain rfl := h
    split
    · exact hs.put ho false
    · exact hs
  | rmdir dir =>
    obtain rfl := h
    exact hs.erase ho
  | copyFirst dir =>
    obtain rfl := h
    exact hs.put ho false
  | copyRest dir =>
    obtain rfl := h
    exact hs.put ho true
  | renameDir source target =>
    obtain ⟨-,complete,-,rfl⟩ := h
    exact (hs.erase ho.1).put ho.2 complete
  | renameLink target => exact ho.elim
  | _ => exact eq_of_responds rfl h ▸ hs

theorem serves_of_sem (ho : o.spares t) (hs : s.Serves t)
    (h : diskSem f o s r s') : s'.Serves t := by
  cases r with
  | ok a => exact serves_of_responds ho hs h
  | error e =>
    rcases h with ⟨-,rfl⟩ | ⟨-,a,h⟩
    · exact hs
    · exact serves_of_responds ho hs h

theorem keeps_of_spares {p : DiskProg α} (hp : p.Calls (Call.spares t))
    (hs : s.Serves t) : p.Keeps (diskSem f) Site.Live s fun _ s' => s'.Serves t :=
  keeps_of_calls hp (Site.Serves · t) (fun _ h => ⟨t,h⟩)
    (fun _ _ _ _ ho hs h => serves_of_sem ho hs h) hs

theorem keeps_inert (ho : o.inert = true) (hs : s.Live)
    (h : ∀ r, diskSem f o s r s → Q r s) : (call o).Keeps (diskSem f) Site.Live s Q :=
  keeps_perform hs fun r s' hr => by
    obtain rfl := eq_of_inert ho hr
    exact ⟨hs,h r hr⟩

theorem keeps_call (ho : o.spares t) (hs : s.Serves t)
    (h : ∀ r s', s'.Serves t → diskSem f o s r s' → Q r s') :
    (call o).Keeps (diskSem f) Site.Live s Q :=
  keeps_perform ⟨t,hs⟩ fun r s' hr =>
    have hs' := serves_of_sem ho hs hr
    ⟨⟨t,hs'⟩,h r s' hs' hr⟩

theorem calls_rm (h : dir ≠ .release t) : (rm dir).Calls (Call.spares t) :=
  calls_bind (calls_perform h) fun _ => calls_perform h

variable (opts : StaticBuildOptions) {keepN : Nat}

theorem calls_runInstall : (runInstall opts).Calls (Call.spares t) := by
  unfold runInstall
  split
  · split
    · exact calls_ret _
    · exact calls_perform trivial
  · exact calls_ret _

theorem calls_runBuild : (runBuild opts).Calls (Call.spares t) := by
  refine calls_bind ?_ fun command => ?_
  · unfold buildCommandOf
    split
    · exact calls_perform trivial
    · exact calls_ret _
  · split
    · exact calls_perform trivial
    · exact calls_ret _

theorem mem_renameDir {s : Site} (hmem : (source, true) ∈ s.dirs)
    (h : Responds (.renameDir source target) s () s') : (target, true) ∈ s'.dirs := by
  obtain ⟨-,complete,hsource,rfl⟩ := h
  obtain rfl : complete = true := congrArg Prod.snd (inj_on_of_nodup_map s.names hsource hmem rfl)
  exact Site.mem_put _ _ _

theorem keeps_promoteSha (hs : s.Serves t) (hmem : (.release sha, true) ∈ s.dirs) :
    (promoteSha appDir sha).Keeps (diskSem f) Site.Live s fun _ _ => True := by
  refine keeps_bind (fun _ s' => s' = s) (keeps_inert rfl ⟨t,hs⟩ fun _ _ => rfl) ?_
    (fun _ _ _ _ => trivial)
  rintro found s1 - rfl
  split
  · exact keeps_throw ⟨t,hs⟩ trivial
  refine keeps_bind (fun _ s' => s' = s1) (keeps_inert rfl ⟨t,hs⟩ fun _ _ => rfl) ?_
    (fun _ _ _ _ => trivial)
  rintro - s2 - rfl
  have hlinked : ({ s2 with current := some sha } : Site).Live := ⟨sha,rfl,hmem⟩
  refine keeps_perform ⟨t,hs⟩ fun r s' hr => ⟨?_,trivial⟩
  cases r with
  | ok a => exact (show s' = _ from hr) ▸ hlinked
  | error e =>
    rcases hr with ⟨-,rfl⟩ | ⟨-,a,hr⟩
    · exact ⟨t,hs⟩
    · exact (show s' = _ from hr) ▸ hlinked

theorem keeps_install (hs : s.Serves t) (hsha : sha ≠ t) :
    (install appDir sha nonce).Keeps (diskSem f) Site.Live s fun _ _ => True := by
  have hrelease : DirName.release sha ≠ .release t := by simpa using hsha
  have hstaging : DirName.staging sha nonce ≠ .release t := by simp
  refine keeps_bind _ (keeps_of_spares (calls_rm hrelease) hs) ?_ (fun _ _ _ _ => trivial)
  intro _ s1 _ hs1
  refine keeps_bind _ (keeps_of_spares (calls_rm hstaging) hs1) ?_ (fun _ _ _ _ => trivial)
  intro _ s2 _ hs2
  refine keeps_bind (fun out s' => s'.Serves t ∧
    (out = .ok () → (.staging sha nonce, true) ∈ s'.dirs)) ?_ ?_ (fun _ _ _ _ => trivial)
  · -- the copy is complete once its last call has answered
    refine keeps_bind (fun _ s' => s'.Serves t) (keeps_call hstaging hs2 fun _ _ h _ => h) ?_
      fun _ _ _ h => ⟨h,fun hout => by cases hout⟩
    intro _ s3 _ hs3
    refine keeps_call hstaging hs3 fun r s' hs' hr => ⟨hs',?_⟩
    rintro rfl
    exact (show s' = _ from hr) ▸ Site.mem_put _ _ _
  rintro ⟨⟩ s3 - ⟨hs3,hcopied⟩
  refine keeps_bind (fun out s' => s'.Serves t ∧
    (out = .ok () → (.release sha, true) ∈ s'.dirs)) ?_ ?_ (fun _ _ _ _ => trivial)
  · refine keeps_call ⟨hstaging,hrelease⟩ hs3 fun r s' hs' hr => ⟨hs',?_⟩
    rintro rfl
    exact mem_renameDir (hcopied rfl) hr
  · rintro ⟨⟩ s4 - ⟨hs4,hrenamed⟩
    exact keeps_promoteSha hs4 (hrenamed rfl)

theorem keeps_runStaticBuild {opts : StaticBuildOptions} (hs : s.Serves t)
    (h : opts.sha ≠ t ∨ opts.checkPaths.isOk = false) :
    (runStaticBuild opts).Keeps (diskSem f) Site.Live s fun _ _ => True := by
  unfold runStaticBuild
  cases hpaths : opts.checkPaths with
  | error message => exact keeps_throw ⟨t,hs⟩ trivial
  | ok _ =>
    have hsha : opts.sha ≠ t := h.resolve_right (by simp [hpaths,Except.isOk,Except.toBool])
    refine keeps_bind _ (keeps_of_spares (calls_runInstall opts) hs) ?_ (fun _ _ _ _ => trivial)
    intro _ s1 _ hs1
    refine keeps_bind _ (keeps_of_spares (calls_runBuild opts) hs1) ?_ (fun _ _ _ _ => trivial)
    intro _ s2 _ hs2
    refine keeps_bind (fun _ s' => s'.Serves t) (keeps_call trivial hs2 fun _ _ h _ => h) ?_
      (fun _ _ _ _ => trivial)
    intro isDirectory s3 _ hs3
    split
    · exact keeps_throw ⟨t,hs3⟩ trivial
    refine keeps_bind (fun _ s' => s'.Serves t) (keeps_call trivial hs3 fun _ _ h _ => h) ?_
      (fun _ _ _ _ => trivial)
    intro _ s4 _ hs4
    exact keeps_install hs4 hsha

theorem not_mem_collectable {currentTarget : Option String}
    (h : currentTarget = some t ∨ .release t ∈ (newestFirst (s.dirs.map Prod.fst)).take keepN) :
    .release t ∉ collectable keepN currentTarget (s.dirs.map Prod.fst) := by
  intro hmem
  obtain ⟨hdrop,hname⟩ := mem_filter.mp hmem
  rcases h with rfl | htake
  · simp [DirName.text] at hname
  · have hnodup : (newestFirst (s.dirs.map Prod.fst)).Nodup :=
      (perm_insertionSort _ _).nodup_iff.mpr s.names
    exact disjoint_take_drop hnodup le_rfl htake hdrop

/-- Either the link is read as it is, or `readlink` may throw. -/
theorem keeps_readCurrent {P : Prop} (hs : s.Serves t) (h : f.throws .readlink → P) :
    readCurrent.Keeps (diskSem f) Site.Live s fun out s' =>
      s' = s ∧ ∀ currentTarget, out = .ok currentTarget → currentTarget = some t ∨ P := by
  have hlive : s.Live := ⟨t,hs⟩
  refine keeps_tryCatch (fun out s' => s' = s ∧
    (∀ target, out = .ok target → target = some t) ∧ ∀ e, out = .error e → f.throws .readlink) ?_
    ?_ ?_
  · refine keeps_bind (fun out s' => s' = s ∧ (∀ target, out = .ok target → target = t) ∧
      ∀ e, out = .error e → f.throws .readlink) (keeps_inert rfl hlive ?_) ?_ ?_
    · intro r hr
      refine ⟨rfl,?_,?_⟩
      · rintro target rfl
        exact (Option.some.inj (hs.1.symm.trans hr.1)).symm
      · rintro e rfl
        rcases hr with ⟨hthrows | hstuck,-⟩ | ⟨hthrows,-⟩
        · exact hthrows
        · exact (hstuck ⟨t,s,hs.1,rfl⟩).elim
        · exact hthrows
    · rintro target s1 - ⟨rfl,htarget,-⟩
      exact keeps_ret hlive ⟨rfl,by simp [htarget target rfl],by simp⟩
    · rintro e s1 - ⟨rfl,-,herr⟩
      exact ⟨rfl,by simp,fun _ _ => herr e rfl⟩
  · rintro target s1 - ⟨rfl,htarget,-⟩
    refine ⟨rfl,?_⟩
    rintro _ ⟨⟩
    exact .inl (htarget target rfl)
  · rintro e s1 - ⟨rfl,-,herr⟩
    exact keeps_ret hlive ⟨rfl,fun _ _ => .inr (h (herr e rfl))⟩

theorem keeps_gcOldShas (hs : s.Serves t)
    (h : f.throws .readlink → .release t ∈ (newestFirst (s.dirs.map Prod.fst)).take keepN) :
    (gcOldShas keepN).Keeps (diskSem f) Site.Live s fun _ _ => True := by
  refine keeps_bind (fun _ s' => s' = s) (keeps_inert rfl ⟨t,hs⟩ fun _ _ => rfl) ?_
    (fun _ _ _ _ => trivial)
  rintro found s1 - rfl
  split
  · exact keeps_ret ⟨t,hs⟩ trivial
  -- the link is read as it is, or the release is among those that are kept anyway
  refine keeps_bind (fun out s' => s' = s1 ∧ ∀ currentTarget, out = .ok currentTarget →
    currentTarget = some t ∨ .release t ∈ (newestFirst (s1.dirs.map Prod.fst)).take keepN) ?_ ?_
    (fun _ _ _ _ => trivial)
  · exact keeps_readCurrent hs h
  rintro currentTarget s2 - ⟨rfl,htarget⟩
  refine keeps_bind (fun out s' => s' = s2 ∧ ∀ entries, out = .ok entries →
    entries = s2.dirs.map Prod.fst) (keeps_inert rfl ⟨t,hs⟩ ?_) ?_ (fun _ _ _ _ => trivial)
  · rintro r hr
    refine ⟨rfl,?_⟩
    rintro entries rfl
    exact hr.1
  rintro entries s3 - ⟨rfl,hentries⟩
  obtain rfl := hentries entries rfl
  have hkept := not_mem_collectable (htarget currentTarget rfl)
  refine keeps_bind _ (keeps_forEach (Site.Serves · t) _ ⟨t,hs⟩ ?_ hs) ?_ (fun _ _ _ _ => trivial)
  · intro dir hdir s4 _ hs4
    exact keeps_of_spares (calls_rm fun hrelease => hkept (hrelease ▸ hdir)) hs4
  · intro _ s4 _ hs4
    exact keeps_ret ⟨t,hs4⟩ trivial

theorem runs_call (h : Responds o s a s') : (call o).Runs (diskSem f) s [⟨o,.ok a⟩] (.ok a) s' :=
  runs_perform.mpr ⟨h,rfl⟩

theorem not_keeps_rm (hs : s.Serves t) :
    ¬ (rm (.release t)).Keeps (diskSem f) Site.Live s fun _ _ => True := by
  intro hkeeps
  have hstep : diskSem f (.unlinkFiles (.release t)) s (.ok ()) (s.put (.release t) false) := by
    have hhas : s.has (.release t) = true := any_eq_true.mpr ⟨_,hs.2,by simp⟩
    simp [diskSem,Responds,hhas]
  exact Site.not_live_put hs.1 (hkeeps.step hstep).now

theorem exists_runs_rm (hs : s.Serves t) (h : dir ≠ .release t) :
    ∃ tr s', (rm dir).Runs (diskSem f) s tr (.ok ()) s' ∧ s'.Serves t := by
  have hrun : (rm dir).Runs (diskSem f) s _ (.ok ()) _ :=
    runs_bind.mpr (.inl ⟨(),_,_,_,runs_call rfl,runs_call rfl,rfl⟩)
  exact ⟨_,_,hrun,(keeps_of_spares (calls_rm h) hs).post _ _ _ hrun⟩

theorem not_keeps_forEach {dirs : List DirName} (hs : s.Serves t) (hmem : .release t ∈ dirs) :
    ¬ (Prog.forEach dirs rm).Keeps (diskSem f) Site.Live s fun _ _ => True := by
  induction dirs generalizing s with
  | nil => simp at hmem
  | cons dir dirs ih =>
    intro hkeeps
    by_cases hdir : dir = .release t
    · subst hdir
      exact not_keeps_rm hs hkeeps.left
    · obtain ⟨tr,s',hrun,hs'⟩ := exists_runs_rm hs hdir
      have hmem' : .release t ∈ dirs := (mem_cons.mp hmem).resolve_left (Ne.symm hdir)
      exact ih hs' hmem' (hkeeps.rest hrun)

theorem exists_runs_runInstall : ∃ tr, (runInstall opts).Runs (diskSem f) s tr (.ok ()) s := by
  unfold runInstall
  split
  · split
    · exact ⟨_,rfl,rfl,rfl⟩
    · exact ⟨_,runs_call rfl⟩
  · exact ⟨_,rfl,rfl,rfl⟩

theorem exists_runs_runBuild : ∃ tr, (runBuild opts).Runs (diskSem f) s tr (.ok ()) s := by
  have hcommand : ∃ tr command, (buildCommandOf opts).Runs (diskSem f) s tr (.ok command) s := by
    unfold buildCommandOf
    split
    · exact ⟨_,none,runs_call rfl⟩
    · exact ⟨_,_,rfl,rfl,rfl⟩
  obtain ⟨tr,command,hrun⟩ := hcommand
  cases command with
  | none => exact ⟨_,runs_bind.mpr (.inl ⟨_,_,_,_,hrun,⟨rfl,rfl,rfl⟩,rfl⟩)⟩
  | some command => exact ⟨_,runs_bind.mpr (.inl ⟨_,_,_,_,hrun,runs_call rfl,rfl⟩)⟩

theorem not_keeps_runStaticBuild {opts : StaticBuildOptions} (hs : s.Serves opts.sha)
    (hpaths : opts.checkPaths.isOk = true) :
    ¬ (runStaticBuild opts).Keeps (diskSem f) Site.Live s fun _ _ => True := by
  unfold runStaticBuild
  cases hcheck : opts.checkPaths with
  | error message => simp [hcheck,Except.isOk,Except.toBool] at hpaths
  | ok _ =>
    intro hkeeps
    obtain ⟨tr1,hinstall⟩ := exists_runs_runInstall opts
    obtain ⟨tr2,hbuild⟩ := exists_runs_runBuild opts
    have hstat : (call .statOutput).Runs (diskSem f) s _ (.ok true) s := runs_call rfl
    have hmkdir : (call .mkdirApp).Runs (diskSem f) s _ (.ok ()) s := runs_call rfl
    exact not_keeps_rm hs ((((hkeeps.rest hinstall).rest hbuild).rest hstat).rest hmkdir).left

theorem not_keeps_gcOldShas (hs : s.Serves t) (hthrows : f.throws .readlink)
    (hold : .release t ∉ (newestFirst (s.dirs.map Prod.fst)).take keepN) :
    ¬ (gcOldShas keepN).Keeps (diskSem f) Site.Live s fun _ _ => True := by
  intro hkeeps
  have hexists : (call .existsApp).Runs (diskSem f) s _ (.ok true) s := runs_call ⟨fun _ => rfl,rfl⟩
  have hread : readCurrent.Runs (diskSem f) s _ (.ok none) s :=
    runs_tryCatch.mpr (.inr ⟨"",s,_,_,runs_bind.mpr (.inr ⟨"",
      runs_perform.mpr ⟨.inl ⟨.inl hthrows,rfl⟩,rfl⟩,rfl⟩),⟨rfl,rfl,rfl⟩,rfl⟩)
  have hreaddir : (call .readdir).Runs (diskSem f) s _ (.ok (s.dirs.map Prod.fst)) s :=
    runs_call ⟨rfl,rfl⟩
  have hmem : .release t ∈ collectable keepN none (s.dirs.map Prod.fst) := by
    have hall : .release t ∈ newestFirst (s.dirs.map Prod.fst) :=
      (mem_insertionSort _).mpr (mem_map_of_mem hs.2)
    rw [← take_append_drop keepN (newestFirst _)] at hall
    refine mem_filter.mpr ⟨(mem_append.mp hall).resolve_left hold,by simp⟩
  exact not_keeps_forEach hs hmem (((hkeeps.rest hexists).rest hread).rest hreaddir).left

end Spares

inductive Operation where
  | build (opts : StaticBuildOptions)
  | gc (keepN : Nat)

def Operation.prog : Operation → DiskProg Unit
  | .build opts => runStaticBuild opts
  | .gc keepN => (gcOldShas keepN).bind fun _ => .ret ()

/-- A build of another commit than the live one or with refused paths; a collection that keeps the
live release. -/
def Operation.Spares (f : Faults) (s : Site) : Operation → Prop
  | .build opts => s.current ≠ some opts.sha ∨ opts.checkPaths.isOk = false
  | .gc keepN => f.throws .readlink → ∀ sha, s.current = some sha →
      .release sha ∈ (newestFirst (s.dirs.map Prod.fst)).take keepN

def Operation.During (f : Faults) (s : Site) (op : Operation) (s' : Site) : Prop :=
  ∃ c : Pool Disk String Unit Unit Site,
    Pool.Reach (diskSem f) (fun _ _ => True) (.start s fun _ => op.prog) c ∧ c.world = s'

inductive Session (f : Faults) (ok : Site → Operation → Prop) (s : Site) : Site → Prop
  | refl : Session f ok s s
  | run {s₁ s₂ : Site} {op : Operation} (h : Session f ok s s₁) (hok : ok s₁ op)
      (hr : op.During f s₁ s₂) : Session f ok s s₂

theorem keeps_operation_iff (f : Faults) {s : Site} (hs : s.Live) (op : Operation) :
    op.prog.Keeps (diskSem f) Site.Live s (fun _ _ => True) ↔ op.Spares f s := by
  obtain ⟨t,hs⟩ := hs
  cases op with
  | build opts =>
    refine ⟨fun hkeeps => ?_,fun h => keeps_runStaticBuild hs (h.imp_left ?_)⟩
    · by_contra hspares
      obtain ⟨hcurrent,hpaths⟩ := not_or.mp hspares
      obtain rfl := Option.some.inj (hs.1.symm.trans (not_not.mp hcurrent))
      exact not_keeps_runStaticBuild hs (by simpa using hpaths) hkeeps
    · rintro hcurrent rfl
      exact hcurrent hs.1
  | gc keepN =>
    refine ⟨fun hkeeps hthrows sha hsha => ?_,fun h => ?_⟩
    · obtain rfl := Option.some.inj (hs.1.symm.trans hsha)
      by_contra hold
      exact not_keeps_gcOldShas hs hthrows hold hkeeps.left
    · refine keeps_bind _ (keeps_gcOldShas hs fun hthrows => h hthrows t hs.1) ?_
        (fun _ _ _ _ => trivial)
      intro _ s1 hs1 _
      exact keeps_ret hs1 trivial

theorem during_live_iff (f : Faults) {s : Site} (hs : s.Live) (op : Operation) :
    (∀ s', op.During f s s' → s'.Live) ↔ op.Spares f s := by
  rw [← keeps_operation_iff f hs op]
  constructor
  · intro h
    exact Pool.keeps_of_reach rfl fun c hc => h _ ⟨c,hc,rfl⟩
  · rintro hkeeps _ ⟨c,hc,rfl⟩
    exact (Pool.reach_keeps hkeeps hc).now

/-- Over any sequence of calls that spare the live release the site stays live, wherever a call
stops; a call that does not spare it has a run that loses it. -/
theorem live_release_kept (f : Faults) {s : Site} (hs : s.Live) :
    (∀ s', Session f (fun s op => op.Spares f s) s s' → s'.Live) ∧
    ∀ op : Operation, (∀ s', op.During f s s' → s'.Live) ↔ op.Spares f s := by
  refine ⟨fun s' h => ?_,during_live_iff f hs⟩
  induction h with
  | refl => exact hs
  | run _ hok hr ih => exact (during_live_iff f ih _).mpr hok _ hr

def noFaults : Faults := ⟨fun _ => False,fun _ h => h.elim⟩

def shopSite : Site where
  dirs := [(.release "a1b2c3", true)]
  current := some "a1b2c3"
  names := by simp

def shopBuild (sha : String) : StaticBuildOptions where
  appDir := "/var/lib/ploydok/static/shop"
  sha := sha
  nonce := "1700000000000-k3x9qp"
  rootDir := none
  staticOutputDir := none
  installCommand := none
  buildCommand := none

theorem live_shopSite : shopSite.Live := ⟨"a1b2c3",rfl,mem_singleton.mpr rfl⟩

theorem spares_shopBuild : (Operation.build (shopBuild "d4e5f6")).Spares noFaults shopSite :=
  .inl (by decide)

theorem live_release_kept_shop : (Operation.build (shopBuild "d4e5f6")).Spares noFaults shopSite ∧
    ∀ s', (Operation.build (shopBuild "d4e5f6")).During noFaults shopSite s' → s'.Live :=
  ⟨spares_shopBuild,((live_release_kept noFaults live_shopSite).2 _).mpr spares_shopBuild⟩

/-- Deploying the live commit again, with no fault at all, leaves a moment without a release. -/
theorem redeploy_loses_live_release :
    ¬ ∀ (f : Faults) (s s' : Site), s.Live → Session f (fun _ _ => True) s s' → s'.Live := by
  intro hclaim
  have hduring : ∀ s', (Operation.build (shopBuild "a1b2c3")).During noFaults shopSite s' →
      s'.Live :=
    fun s' h => hclaim noFaults shopSite s' live_shopSite (.run .refl trivial h)
  have hpaths : (shopBuild "a1b2c3").checkPaths.isOk = true := by decide +kernel
  rcases (during_live_iff noFaults live_shopSite _).mp hduring with hcurrent | hrefused
  · exact hcurrent rfl
  · exact Bool.false_ne_true (hrefused.symm.trans hpaths)

end Ploydok.Static
