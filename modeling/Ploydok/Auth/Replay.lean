import Ploydok.Auth.Consumption
import Mathlib.Data.Int.Interval

/-! Replays of a TOTP code. The lock of a step is held from before the look at the used steps until
the commit, so of two requests with one step the second sees the row of the first, where a request
makes its calls at most one period after the one in which it verified the code. -/

namespace Ploydok.Auth

open Effect Function List Option

variable {ι : Type}

abbrev Requests (ι : Type) := Pool AuthSig String (Option Response) ι World

/-- Request `i` of the user was let through with the step. -/
def AcceptedWith (parties : ι → Party) (c : Requests ι) (userId : String) (step : Int)
    (i : ι) : Prop :=
  (∃ req, parties i = .request req ∧ req.userId = some userId) ∧
    (c.prog i).outcome = some (.ok (some (.next (some step))))

def verifiedAt (log : List AuthEvent) : Option Int := log.reverse.findSome? verification

theorem verifiedAt_concat (log : List AuthEvent) (ev : AuthEvent) :
    verifiedAt (log ++ [ev]) = (verification ev).or (verifiedAt log) := by
  cases h : verification ev <;> simp [verifiedAt,h]

def Prompt (c : Requests ι) (i : ι) : Prop :=
  ∀ t ∈ verifiedAt (c.log i), stepOf c.world.clock ≤ stepOf t + 1

instance (c : Requests ι) : DecidablePred (Prompt c) := fun i =>
  inferInstanceAs (Decidable (∀ t ∈ verifiedAt (c.log i), stepOf c.world.clock ≤ stepOf t + 1))

def GoodRow (now : Int) (row : VerifiedRow) : Prop :=
  row.createdAt ≤ now ∧ ∃ step, row.totpStep = some step ∧
    stepOf row.createdAt - 2 ≤ step ∧ step ≤ stepOf row.createdAt + 1

structure Recorded (w : World) : Prop where
  exclusive : ∀ e ∈ w.held, ∀ e' ∈ w.held, e.2 = e'.2 → e.1 = e'.1
  good : ∀ row ∈ w.verified, GoodRow w.clock row
  distinct : (w.verified.map fun row => (row.userId, row.totpStep)).Nodup

def Unused (w : World) (user : String) (step : Int) : Prop :=
  ∀ row ∈ w.verified, row.userId = user → row.totpStep ≠ some step

section Rows

variable {w : World} {user : String} {t step : Int} {found : List VerifiedRow}

/-- A row that is not among the most recent ones is no newer than `n` others. -/
theorem older_of_mostRecent (h : MostRecent n rows found) (hrow : row ∈ rows) (hnot : row ∉ found) :
    found.length = n ∧ ∀ x ∈ found, row.createdAt ≤ x.createdAt := by
  obtain ⟨rest,hperm,hlength,hold⟩ := h
  have hrest : row ∈ rest := by
    have := hperm.mem_iff.mpr hrow
    simpa [hnot] using this
  have htotal := hperm.length_eq
  rw [length_append] at htotal
  have hpos := length_pos_of_mem hrest
  exact ⟨by omega,fun x hx => hold x hx row hrest⟩

theorem unused_of_mostRecent (hw : Recorded w) (hnear : Near t step)
    (hclock : stepOf w.clock ≤ stepOf t + 1)
    (hfound : MostRecent LOOK_BACK (w.verified.filter (·.userId = user)) found)
    (hnot : ∀ row ∈ found, row.totpStep ≠ some step) : Unused w user step := by
  intro row hrow huser hstep
  have hmem : row ∈ w.verified.filter (·.userId = user) := by simp [hrow,huser]
  obtain ⟨hlength,hnewer⟩ := older_of_mostRecent hfound hmem fun hin => hnot row hin hstep
  obtain ⟨rest,hperm,-,-⟩ := hfound
  have hsub : ∀ x ∈ found, x ∈ w.verified ∧ x.userId = user := by
    intro x hx
    have hx' : x ∈ w.verified.filter (·.userId = user) := hperm.mem_iff.mp (mem_append_left _ hx)
    simpa using hx'
  have hnodup : found.Nodup := by
    have hall : (w.verified.filter (·.userId = user)).Nodup :=
      (List.Nodup.of_map _ hw.distinct).filter _
    exact (nodup_append.mp (hperm.nodup_iff.mpr hall)).1
  -- the steps of the rows found are distinct and lie around the step
  have hwindow : ∀ x ∈ found, x.totpStep.getD 0 ∈ Finset.Icc (step - 3) (step + 3) := by
    intro x hx
    obtain ⟨-,rowStep,hrowStep,hlo,hhi⟩ := hw.good row hrow
    obtain ⟨hpast,xStep,hxStep,hxlo,hxhi⟩ := hw.good x (hsub x hx).1
    obtain rfl : rowStep = step := by simpa [hrowStep] using hstep
    have h1 := stepOf_mono (hnewer x hx)
    have h2 := stepOf_mono hpast
    obtain ⟨hnear1,hnear2⟩ := hnear
    rw [hxStep,getD_some,Finset.mem_Icc]
    omega
  have hinj : Set.InjOn (fun x : VerifiedRow => x.totpStep.getD 0) found.toFinset := by
    intro x hx y hy hxy
    have hx' := hsub x (by simpa using hx)
    have hy' := hsub y (by simpa using hy)
    obtain ⟨-,xStep,hxStep,-⟩ := hw.good x hx'.1
    obtain ⟨-,yStep,hyStep,-⟩ := hw.good y hy'.1
    refine inj_on_of_nodup_map hw.distinct hx'.1 hy'.1 ?_
    simpa [hx'.2,hy'.2,hxStep,hyStep] using hxy
  have hcard := Finset.card_le_card_of_injOn _ (fun x hx => hwindow x (by simpa using hx)) hinj
  rw [toFinset_card_of_nodup hnodup,hlength,Int.card_Icc] at hcard
  unfold LOOK_BACK at hcard
  omega

end Rows

/-! ### What a call of another request leaves -/

/-- A call for the transaction `mine` leaves other transactions and their locks, and adds rows only
under its own locks. -/
structure Frame (hashtext : String → Int) (mine : Option Nat) (w w' : World) : Prop where
  clock : w.clock ≤ w'.clock
  nextTx : w.nextTx ≤ w'.nextTx
  transactions : ∀ tx, mine ≠ some tx → w'.transactions tx = w.transactions tx
  held : ∀ tx key, mine ≠ some tx → (tx, key) ∈ w.held → (tx, key) ∈ w'.held
  kept : ∀ row ∈ w.verified, row ∈ w'.verified
  added : ∀ row ∈ w'.verified, row ∉ w.verified → ∃ step tx, row.totpStep = some step ∧
    mine = some tx ∧ (tx, lockKey hashtext row.userId step) ∈ w.held

section Runs

variable {hashtext : String → Int} {w w' : World} {mine : Option Nat} {tx : Nat} {t : Tx}
  {step : Int}

theorem frame_of_eq (hclock : w.clock ≤ w'.clock) (hnext : w.nextTx ≤ w'.nextTx)
    (htransactions : ∀ tx, mine ≠ some tx → w'.transactions tx = w.transactions tx)
    (hheld : w'.held = w.held) (hverified : w'.verified = w.verified) :
    Frame hashtext mine w w' where
  clock := hclock
  nextTx := hnext
  transactions := htransactions
  held := fun _ _ _ h => hheld ▸ h
  kept := fun _ h => hverified ▸ h
  added := fun _ h hnot => absurd (hverified ▸ h) hnot

theorem Frame.refl (mine : Option Nat) (w : World) : Frame hashtext mine w w :=
  frame_of_eq le_rfl le_rfl (fun _ _ => rfl) rfl rfl

theorem frame_setTx (t : Tx) : Frame hashtext (some tx) w (w.setTx tx t) :=
  frame_of_eq le_rfl le_rfl
    (fun _ h => update_of_ne (fun heq => h (congrArg some heq.symm)) _ _) rfl rfl

theorem frame_abort : Frame hashtext (some tx) w (w.abort tx) :=
  frame_of_eq le_rfl le_rfl
    (fun _ h => update_of_ne (fun heq => h (congrArg some heq.symm)) _ _) rfl rfl

theorem frame_beginTx : Frame hashtext (some w.nextTx) w w.beginTx :=
  frame_of_eq le_rfl (Nat.le_succ _)
    (fun _ h => update_of_ne (fun heq => h (congrArg some heq.symm)) _ _) rfl rfl

theorem frame_lock (key : Int × Int) : Frame hashtext (some tx) w (w.lock tx key) where
  clock := le_rfl
  nextTx := le_rfl
  transactions := fun _ _ => rfl
  held := fun _ _ _ h => mem_cons_of_mem _ h
  kept := fun _ h => h
  added := fun _ h hnot => absurd h hnot

theorem mem_held_endTx : e ∈ (w.endTx tx).held ↔ e ∈ w.held ∧ e.1 ≠ tx := by
  simp [World.endTx]

theorem frame_publish (hrows : ∀ row ∈ t.rows, ∃ step, row.totpStep = some step ∧
      (tx, lockKey hashtext row.userId step) ∈ w.held) :
    Frame hashtext (some tx) w (w.publish tx t) where
  clock := le_rfl
  nextTx := le_rfl
  transactions := fun _ h => update_of_ne (fun heq => h (congrArg some heq.symm)) _ _
  held := fun _ _ hne h => mem_held_endTx.mpr ⟨h,fun heq => hne (congrArg some heq.symm)⟩
  kept := fun _ h => mem_append_left _ h
  added := by
    intro row h hnot
    have hrow : row ∈ t.rows := (mem_append.mp h).resolve_left hnot
    obtain ⟨step,hstep,hlock⟩ := hrows row hrow
    exact ⟨step,tx,hstep,rfl,hlock⟩

theorem publish_nil (h : t.rows = []) : w.publish tx t = w.endTx tx := by
  simp [World.publish,h]

theorem frame_endTx : Frame hashtext (some tx) w (w.endTx tx) := by
  rw [← publish_nil (t := ⟨[],false⟩) rfl]
  exact frame_publish (by simp)

theorem Recorded.of_eq (h : Recorded w) (hclock : w.clock ≤ w'.clock)
    (hheld : w'.held = w.held) (hverified : w'.verified = w.verified) : Recorded w' where
  exclusive := by
    rw [hheld]
    exact h.exclusive
  good := by
    rw [hverified]
    intro row hrow
    obtain ⟨hpast,hnear⟩ := h.good row hrow
    exact ⟨hpast.trans hclock,hnear⟩
  distinct := by
    rw [hverified]
    exact h.distinct

theorem Recorded.lock (h : Recorded w) (hfree : w.Free tx key) :
    Recorded (w.lock tx key) where
  exclusive := by
    intro e he e' he' hkey
    rcases mem_cons.mp he with rfl | he
    · rcases mem_cons.mp he' with rfl | he'
      · rfl
      · exact (hfree e' he' hkey.symm).symm
    · rcases mem_cons.mp he' with rfl | he'
      · exact hfree e he hkey
      · exact h.exclusive e he e' he' hkey
  good := h.good
  distinct := h.distinct

theorem Recorded.endTx (h : Recorded w) : Recorded (w.endTx tx) where
  exclusive := fun e he e' he' =>
    h.exclusive e (mem_held_endTx.mp he).1 e' (mem_held_endTx.mp he').1
  good := h.good
  distinct := h.distinct

theorem Recorded.publish (h : Recorded w) (hgood : GoodRow w.clock ⟨user,some step,createdAt⟩)
    (hunused : Unused w user step) :
    Recorded (w.publish tx ⟨[⟨user,some step,createdAt⟩],false⟩) where
  exclusive := h.endTx.exclusive
  good := by
    intro row hrow
    rcases mem_append.mp hrow with hrow | hrow
    · exact h.good row hrow
    · rw [mem_singleton] at hrow
      exact hrow ▸ hgood
  distinct := by
    show ((w.verified ++ [(⟨user,some step,createdAt⟩ : VerifiedRow)]).map _).Nodup
    rw [map_append,nodup_append]
    refine ⟨h.distinct,by simp,?_⟩
    intro key hkey key' hkey' heq
    obtain ⟨row,hrow,rfl⟩ := mem_map.mp hkey
    obtain rfl : key' = (user, some step) := by simpa using hkey'
    exact hunused row hrow (congrArg Prod.fst heq) (congrArg Prod.snd heq)

structure Owns (hashtext : String → Int) (w : World) (user : String) (tx : Nat) (step : Int)
    (rows : List VerifiedRow) : Prop where
  opened : w.transactions tx = some ⟨rows,false⟩
  lock : (tx, lockKey hashtext user step) ∈ w.held

def Phase.Holds (hashtext : String → Int) (w : World) (user : String) : Phase → Prop
  | .checked t => t ≤ w.clock
  | .begun t tx => t ≤ w.clock ∧ w.transactions tx = some ⟨[],false⟩
  | .locked t tx step => t ≤ w.clock ∧ Near t step ∧ Owns hashtext w user tx step []
  | .unused t tx step =>
    t ≤ w.clock ∧ Near t step ∧ Owns hashtext w user tx step [] ∧ Unused w user step
  | .stamped _ tx step createdAt =>
    GoodRow w.clock ⟨user,some step,createdAt⟩ ∧ Owns hashtext w user tx step [] ∧
      Unused w user step
  | .inserted _ tx step createdAt =>
    GoodRow w.clock ⟨user,some step,createdAt⟩ ∧
      Owns hashtext w user tx step [⟨user,some step,createdAt⟩] ∧ Unused w user step
  | .committed step => ¬ Unused w user step
  | .closing tx => ∀ t, w.live tx = some t → t.rows = []
  | _ => True

variable {user : String} {t step createdAt : Int} {rows : List VerifiedRow} {s : Phase}

theorem Owns.frame (h : Owns hashtext w user tx step rows) (hf : Frame hashtext mine w w')
    (hne : mine ≠ some tx) : Owns hashtext w' user tx step rows :=
  ⟨(hf.transactions tx hne).trans h.opened,hf.held _ _ hne h.lock⟩

theorem Owns.live (h : Owns hashtext w user tx step rows) : w.live tx = some ⟨rows,false⟩ := by
  simp [World.live,h.opened]

theorem GoodRow.frame (h : GoodRow w.clock row) (hf : Frame hashtext mine w w') :
    GoodRow w'.clock row :=
  ⟨h.1.trans hf.clock,h.2⟩

theorem Unused.frame (h : Unused w user step) (hw : Recorded w)
    (hown : Owns hashtext w user tx step rows) (hf : Frame hashtext mine w w')
    (hne : mine ≠ some tx) : Unused w' user step := by
  intro row hrow huser hstep
  by_cases hold : row ∈ w.verified
  · exact h row hold huser hstep
  · obtain ⟨step',tx',hstep',hmine,hlock⟩ := hf.added row hrow hold
    obtain rfl : step = step' := by simpa [hstep] using hstep'
    have hsame : tx' = tx := hw.exclusive _ hlock _ hown.lock (by rw [huser])
    exact hne (hsame ▸ hmine)

theorem Phase.Holds.frame (h : s.Holds hashtext w user) (hw : Recorded w)
    (hf : Frame hashtext mine w w') (hne : ∀ tx, s.tx = some tx → mine ≠ some tx) :
    s.Holds hashtext w' user := by
  cases s with
  | ticking | waiting | finished => trivial
  | checked t => exact le_trans h hf.clock
  | begun t tx =>
    obtain ⟨ht,hopen⟩ := h
    exact ⟨ht.trans hf.clock,(hf.transactions tx (hne tx rfl)).trans hopen⟩
  | locked t tx step =>
    obtain ⟨ht,hnear,hown⟩ := h
    exact ⟨ht.trans hf.clock,hnear,hown.frame hf (hne tx rfl)⟩
  | unused t tx step =>
    obtain ⟨ht,hnear,hown,hunused⟩ := h
    exact ⟨ht.trans hf.clock,hnear,hown.frame hf (hne tx rfl),
      hunused.frame hw hown hf (hne tx rfl)⟩
  | stamped t tx step createdAt | inserted t tx step createdAt =>
    obtain ⟨hgood,hown,hunused⟩ := h
    exact ⟨hgood.frame hf,hown.frame hf (hne tx rfl),hunused.frame hw hown hf (hne tx rfl)⟩
  | committed step => exact fun hunused => h fun row hrow => hunused row (hf.kept row hrow)
  | closing tx =>
    intro t ht
    have hlive : w'.live tx = w.live tx := by
      simp only [World.live,hf.transactions tx (hne tx rfl)]
    exact h t (hlive ▸ ht)

theorem holds_closing_abort : (Phase.closing tx).Holds hashtext (w.abort tx) user := by
  intro t ht
  simp only [World.live,World.abort,update_self,filter_eq_some_iff, map_eq_some_iff] at ht
  obtain ⟨⟨t',-,rfl⟩,hlive⟩ := ht
  cases hlive

/-! ### Every run -/

def Apart (a b : String × Phase) : Prop := ∀ tx, a.2.tx = some tx → b.2.tx ≠ some tx

def CommitOnce (a b : String × Phase) : Prop :=
  ∀ step, a.2 = .committed step → b.2 = .committed step → a.1 ≠ b.1

structure Consistent (hashtext : String → Int) (w : World) (φ : ι → String × Phase) : Prop where
  recorded : Recorded w
  holds : ∀ i, (φ i).2.Holds hashtext w (φ i).1
  below : ∀ i tx, (φ i).2.tx = some tx → tx < w.nextTx
  apart : Pairwise fun i j => Apart (φ i) (φ j)
  once : Pairwise fun i j => CommitOnce (φ i) (φ j)

variable {φ : ι → String × Phase} {i : ι} {s' : Phase}

theorem Consistent.frame (h : Consistent hashtext w φ) (hf : Frame hashtext none w w')
    (hw' : Recorded w') : Consistent hashtext w' φ where
  recorded := hw'
  holds := fun j => (h.holds j).frame h.recorded hf fun _ _ => by simp
  below := fun j tx hj => (h.below j tx hj).trans_le hf.nextTx
  apart := h.apart
  once := h.once

/-- A call of request `i`, on its transaction or on one that it begins. -/
theorem Consistent.advance [DecidableEq ι] (h : Consistent hashtext w φ) (hφ : φ i = (user, s))
    (hf : Frame hashtext mine w w') (hw' : Recorded w') (hmine : mine = s.tx ∨ mine = some w.nextTx)
    (htx : ∀ tx, s'.tx = some tx → mine = some tx ∧ tx < w'.nextTx)
    (hs' : s'.Holds hashtext w' user) (honce : ∀ step, s' = .committed step → Unused w user step) :
    Consistent hashtext w' (update φ i (user, s')) := by
  have hother : ∀ j, j ≠ i → ∀ tx, (φ j).2.tx = some tx → mine ≠ some tx := by
    intro j hj tx hjtx heq
    rcases hmine with hmine | hmine
    · exact h.apart hj tx hjtx (by rw [hφ]; exact hmine ▸ heq)
    · have hlt := h.below j tx hjtx
      obtain rfl : w.nextTx = tx := by simpa [hmine] using heq
      exact lt_irrefl _ hlt
  constructor
  · exact hw'
  · exact (forall_update_iff φ fun _ s => s.2.Holds hashtext w' s.1).mpr
      ⟨hs',fun j hj => (h.holds j).frame h.recorded hf (hother j hj)⟩
  · intro j tx hjtx
    by_cases hj : j = i
    · subst hj
      exact (htx tx (by simpa using hjtx)).2
    · rw [update_of_ne hj] at hjtx
      exact (h.below j tx hjtx).trans_le hf.nextTx
  · refine pairwise_update (fun a b hab tx hb ha => hab tx ha hb) h.apart ?_
    intro j hj tx hjtx hstx
    exact hother j hj tx hjtx (htx tx hstx).1
  · refine pairwise_update (fun a b hab step hb ha => (hab step ha hb).symm) h.once ?_
    -- a new commit is not that of another request, whose row would be there already
    intro j hj step hjstep hstep huser
    have hused := h.holds j
    rw [hjstep,huser] at hused
    exact hused (honce step hstep)

variable {o : Call} {r : Except String o.Res}

theorem authSem_plain (ho : Plain o)
    (hs : authSem hashtext o w r w') : w'.clock = w.clock ∧ w'.nextTx = w.nextTx ∧
      w'.transactions = w.transactions ∧ w'.held = w.held ∧ w'.verified = w.verified := by
  cases o with
  | dateNow why | getTotpSecret userId =>
    obtain rfl := hs.1
    exact ⟨rfl,rfl,rfl,rfl,rfl⟩
  | recordTotpFailure userId =>
    obtain rfl := hs.2
    exact ⟨rfl,rfl,rfl,rfl,rfl⟩
  | resetTotpFailures userId =>
    obtain rfl := hs.1
    exact ⟨rfl,rfl,rfl,rfl,rfl⟩
  | logTotpLocked userId source =>
    obtain rfl := hs
    exact ⟨rfl,rfl,rfl,rfl,rfl⟩
  | _ => exact ho.elim

theorem authSem_commit {r : Except String Unit} (hs : authSem hashtext (.commit tx) w r w') :
    w' = w.endTx tx ∨ ∃ t, w.live tx = some t ∧ w' = w.publish tx t := by
  cases r with
  | ok u => exact .inr hs
  | error e => exact hs

theorem goodRow_of_prompt (ht : t ≤ w.clock) (hnear : Near t step)
    (hprompt : stepOf w.clock ≤ stepOf t + 1) : GoodRow w.clock ⟨user,some step,w.clock⟩ := by
  have hmono := stepOf_mono ht
  obtain ⟨hlo,hhi⟩ := hnear
  refine ⟨le_rfl,step,rfl,?_,?_⟩
  · show stepOf w.clock - 2 ≤ step
    omega
  · show step ≤ stepOf w.clock + 1
    omega

theorem consistent_step [DecidableEq ι] (h : Consistent hashtext w φ) (hφ : φ i = (user, s))
    (hprompt : ∀ t, s.time = some t → stepOf w.clock ≤ stepOf t + 1)
    (hs : authSem hashtext o w r w') (hp : PhaseStep user s ⟨o,r⟩ s') :
    Consistent hashtext w' (update φ i (user, s')) := by
  have hholds : s.Holds hashtext w user := by simpa [hφ] using h.holds i
  have hbelow : ∀ tx, s.tx = some tx → tx < w.nextTx := by simpa [hφ] using h.below i
  -- on the transaction of the request, or on none
  have hmove {w' : World} {s' : Phase} (hf : Frame hashtext s.tx w w') (hw' : Recorded w')
      (hs' : s'.Holds hashtext w' user)
      (htx : ∀ tx, s'.tx = some tx → s.tx = some tx := by simp [Phase.tx])
      (honce : ∀ step, s' = .committed step → Unused w user step := by simp) :
      Consistent hashtext w' (update φ i (user, s')) := by
    refine h.advance hφ hf hw' (.inl rfl) (fun tx hs'tx => ⟨htx tx hs'tx,?_⟩) hs' honce
    exact (hbelow tx (htx tx hs'tx)).trans_le hf.nextTx
  have hfail {tx : Nat} (htx : s.tx = some tx) :
      Consistent hashtext (w.abort tx) (update φ i (user, .closing tx)) :=
    hmove (htx ▸ frame_abort) (h.recorded.of_eq le_rfl rfl rfl) holds_closing_abort
      fun _ htx' => htx.trans htx'
  have hover {w' : World} (hf : Frame hashtext s.tx w w') (hw' : Recorded w') :
      Consistent hashtext w' (update φ i (user, .finished)) := hmove hf hw' trivial
  cases hp with
  | plain ho =>
    obtain ⟨hclock,hnext,htransactions,hheld,hverified⟩ := authSem_plain ho hs
    rw [← hφ,update_eq_self]
    exact h.frame (frame_of_eq hclock.ge hnext.ge (fun tx _ => congrFun htransactions tx) hheld
      hverified) (h.recorded.of_eq hclock.ge hheld hverified)
  | tick =>
    obtain ⟨rfl,-⟩ := hs
    have hle : ∀ ms : Nat, w.clock ≤ w.clock + ms := by
      omega
    exact hmove (frame_of_eq (hle _) le_rfl (fun _ _ => rfl) rfl rfl)
      (h.recorded.of_eq (hle _) rfl rfl) trivial
  | check =>
    obtain ⟨rfl,hr⟩ := hs
    cases hr
    exact hmove (.refl _ _) h.recorded le_rfl
  | uncheck =>
    obtain ⟨rfl,-⟩ := hs
    exact hover (.refl _ _) h.recorded
  | start =>
    obtain ⟨rfl,rfl⟩ := hs
    refine h.advance hφ frame_beginTx (h.recorded.of_eq le_rfl rfl rfl) (.inr rfl)
      (fun tx htx => ⟨htx,?_⟩) ⟨hholds,by simp [World.beginTx,World.setTx]⟩ (by simp)
    cases htx
    exact Nat.lt_succ_self _
  | unstart =>
    obtain rfl := hs
    exact hover (.refl _ _) h.recorded
  | lock hnear =>
    obtain ⟨-,hfree,rfl⟩ := hs
    obtain ⟨ht,hopen⟩ := hholds
    exact hmove (frame_lock _) (h.recorded.lock hfree) ⟨ht,hnear,hopen,mem_cons_self⟩
  | unlock | unselect | uninsert =>
    obtain rfl := hs
    exact hfail rfl
  | used =>
    obtain ⟨t,hlive,rfl,-⟩ := hs
    obtain ⟨-,-,hown⟩ := hholds
    refine hmove (.refl _ _) h.recorded fun t' ht' => ?_
    obtain rfl := some.inj (hown.live.symm.trans ht')
    rfl
  | unused hnot =>
    obtain ⟨t,hlive,rfl,hrecent⟩ := hs
    obtain ⟨ht,hnear,hown⟩ := hholds
    obtain rfl := some.inj (hown.live.symm.trans hlive)
    simp only [World.visible,append_nil] at hrecent
    have hunused := unused_of_mostRecent h.recorded hnear (hprompt _ rfl) hrecent hnot
    exact hmove (.refl _ _) h.recorded ⟨ht,hnear,hown,hunused⟩
  | stamp =>
    obtain ⟨rfl,hr⟩ := hs
    cases hr
    obtain ⟨ht,hnear,hown,hunused⟩ := hholds
    exact hmove (.refl _ _) h.recorded
      ⟨goodRow_of_prompt ht hnear (hprompt _ rfl),hown,hunused⟩
  | unstamp => cases hs.2
  | insert =>
    obtain ⟨t,hlive,rfl⟩ := hs
    obtain ⟨hgood,hown,hunused⟩ := hholds
    obtain rfl := some.inj (hown.live.symm.trans hlive)
    exact hmove (frame_setTx _) (h.recorded.of_eq le_rfl rfl rfl)
      ⟨hgood,⟨by simp [World.setTx],hown.lock⟩,hunused⟩
  | commit =>
    obtain ⟨t,hlive,rfl⟩ := hs
    obtain ⟨hgood,hown,hunused⟩ := hholds
    obtain rfl := some.inj (hown.live.symm.trans hlive)
    refine hmove (frame_publish (by simpa using hown.lock)) (h.recorded.publish hgood hunused)
      (fun hnone => hnone _ (mem_append_right _ mem_cons_self) rfl rfl) (by simp [Phase.tx]) ?_
    intro step hstep
    cases hstep
    exact hunused
  | uncommit =>
    obtain ⟨hgood,hown,hunused⟩ := hholds
    rcases hs with rfl | ⟨t,hlive,rfl⟩
    · exact hover frame_endTx h.recorded.endTx
    · obtain rfl := some.inj (hown.live.symm.trans hlive)
      exact hover (frame_publish (by simpa using hown.lock)) (h.recorded.publish hgood hunused)
  | close =>
    rcases authSem_commit hs with rfl | ⟨t,hlive,rfl⟩
    · exact hover frame_endTx h.recorded.endTx
    · rw [publish_nil (hholds t hlive)]
      exact hover frame_endTx h.recorded.endTx
  | undo =>
    obtain rfl := hs
    exact hover frame_endTx h.recorded.endTx

structure Tracked (hashtext : String → Int) (parties : ι → Party) (c : Requests ι)
    (φ : ι → String × Phase) : Prop where
  consistent : Consistent hashtext c.world φ
  user : ∀ i, (φ i).1 = (parties i).userId
  time : ∀ i t, (φ i).2.time = some t → verifiedAt (c.log i) = some t

theorem tracked_start (env : Platform) (parties : ι → Party) (hw : Recorded w) :
    Tracked hashtext parties (.start w fun i => (parties i).program env)
      fun i => (parties i).start := by
  have htx : ∀ party : Party, party.start.2.tx = none := by
    intro party
    cases party <;> rfl
  constructor
  · refine ⟨hw,fun i => ?_,fun i tx h => ?_,fun i j _ tx h => ?_,fun i j _ step h => ?_⟩
    · cases h : parties i <;> trivial
    · simp [htx] at h
    · simp [htx] at h
    · cases hp : parties i <;> simp [hp,Party.start] at h
  · exact fun _ => rfl
  · intro i t h
    cases hp : parties i <;> simp [hp,Party.start,Phase.time] at h

theorem tracked_step [DecidableEq ι] (h : Tracked hashtext parties c φ) (hok : Prompt c i)
    (hs : authSem hashtext o c.world r w') (hp : PhaseStep (φ i).1 (φ i).2 ⟨o,r⟩ s') :
    Tracked hashtext parties (c.advance i ⟨o,r⟩ p w') (update φ i ((φ i).1, s')) := by
  constructor
  · exact consistent_step h.consistent rfl (fun t ht => hok t (h.time i t ht)) hs hp
  · exact (forall_update_iff φ fun j s => s.1 = (parties j).start.1).mpr
      ⟨h.user i,fun j _ => h.user j⟩
  · intro j t ht
    by_cases hj : j = i
    · subst hj
      rw [update_self] at ht
      rw [Pool.advance_log,update_self,verifiedAt_concat]
      rcases time_of_phaseStep hp ht with hnow | ⟨hnone,hbefore⟩
      · rw [hnow,some_or]
      · rw [hnone,none_or]
        exact h.time j t hbefore
    · rw [update_of_ne hj] at ht
      rw [Pool.advance_log,update_of_ne hj]
      exact h.time j t ht

/-- Where requests are prompt, no step of a user is accepted twice. -/
theorem accepted_at_most_once [DecidableEq ι] (env : Platform) (hashtext : String → Int)
    (parties : ι → Party) {w : World} (hw : Recorded w) {c : Requests ι}
    (hr : Pool.Reach (authSem hashtext) Prompt (.start w fun i => (parties i).program env) c) :
    ∀ userId step i j, AcceptedWith parties c userId step i →
      AcceptedWith parties c userId step j → i = j := by
  obtain ⟨φ,hphased,h⟩ := Pool.reach_phased consumption _
    (fun i => follows_program env (parties i)) (Tracked hashtext parties)
    (tracked_start env parties hw)
    (fun c φ i o k r w' s' _ h hok _ hs hn _ => by
      obtain ⟨s'',hnext,rfl⟩ := map_eq_some_iff.mp hn
      exact tracked_step h hok hs (phaseStep_of_next hnext)) hr
  have hphase : ∀ {userId step i}, AcceptedWith parties c userId step i →
      φ i = (userId, .committed step) := by
    intro userId step i hacc
    obtain ⟨⟨req,hreq,huser⟩,hout⟩ := hacc
    have hfollows := hphased.follows i
    rw [Prog.outcome_eq_ok_iff.mp hout] at hfollows
    refine Prod.ext ?_ (hfollows step rfl)
    rw [h.user i,hreq]
    simp [Party.userId,huser]
  intro userId step i j hi hj
  by_contra hne
  refine h.consistent.once hne step ?_ ?_ ?_
  · rw [hphase hi]
  · rw [hphase hj]
  · rw [hphase hi,hphase hj]

end Runs

namespace Example

def parties (n : Nat) : Party :=
  match ["745690", "745690", "119644", "582485", "283362", "822761", "898039", "909865",
    "477664", "526424"][n]? with
  | some code => .request ⟨some "usr_1",none,some code⟩
  | none => .clock 30000

def scheduled (sched : List Nat) : Requests Nat :=
  sched.foldl (Pool.tick (answer hash {}))
    (.start (world none) fun n => (parties n).program platform)

def delayed : List Nat := [1, 1] ++ replicate 10 0 ++ [10] ++ replicate 5 1

def overtaken : List Nat :=
  [1, 1] ++ replicate 10 0 ++
    (range 8).flatMap (fun n => (10 + n) :: replicate 10 (2 + n)) ++
    replicate 8 1

theorem recorded_world : Recorded (world none) where
  exclusive := by simp [world]
  good := by simp [world]
  distinct := by simp [world]

end Example

open Example

theorem accepted_at_most_once_example :
    AcceptedWith parties (scheduled delayed) "usr_1" 58907520 0 ∧
      ¬ AcceptedWith parties (scheduled delayed) "usr_1" 58907520 1 := by
  have hreach : Pool.Reach (authSem hash) Prompt
      (.start (world none) fun n => (parties n).program platform)
      (scheduled delayed) :=
    Pool.reach_schedule (authSem_answer hash {}) _ _ (by decide +kernel)
  have hfirst : ((scheduled delayed).prog 0).outcome =
      some (.ok (some (.next (some 58907520)))) := by decide +kernel
  have hacc : AcceptedWith parties (scheduled delayed) "usr_1" 58907520 0 := ⟨⟨_,rfl,rfl⟩,hfirst⟩
  refine ⟨hacc,fun hagain => ?_⟩
  have heq := accepted_at_most_once platform hash parties
    recorded_world hreach "usr_1" 58907520 0 1 hacc hagain
  cases heq

/-- A request that stalls is accepted with a step that was used nine rows ago. -/
theorem stalled_request_replays :
    ¬ ∀ (env : Platform) (hashtext : String → Int) (parties : Nat → Party) (w : World),
      Recorded w → ∀ c : Requests Nat,
      Pool.Reach (authSem hashtext) (fun _ _ => True)
        (.start w fun i => (parties i).program env) c →
      ∀ userId step i j, AcceptedWith parties c userId step i →
        AcceptedWith parties c userId step j → i = j := by
  intro h
  have hreach : Pool.Reach (authSem hash) (fun _ _ => True)
      (.start (world none) fun n => (parties n).program platform)
      (scheduled overtaken) :=
    Pool.reach_schedule (authSem_answer hash {}) _ _
      (Pool.admits_of_forall (fun _ _ => trivial) _ _)
  have hboth : ((scheduled overtaken).prog 0).outcome = some (.ok (some (.next (some 58907520)))) ∧
      ((scheduled overtaken).prog 1).outcome =
        some (.ok (some (.next (some 58907520)))) := by decide +kernel
  have heq := h platform hash parties _ recorded_world _ hreach
    "usr_1" 58907520 0 1 ⟨⟨_,rfl,rfl⟩,hboth.1⟩ ⟨⟨_,rfl,rfl⟩,hboth.2⟩
  cases heq

end Ploydok.Auth
