import Mathlib.Data.List.Nodup

/-! A queue of jobs that are known by their ids, with what BullMQ documents about it: adding a job
whose id is in use does nothing, a job that a worker holds cannot be removed, and a finished job
keeps its id. -/

namespace Ploydok.Queue

open List

inductive JobState where
  | waiting | delayed | paused | prioritized | active | completed | failed
  deriving DecidableEq, Repr

def JobState.queued : JobState → Bool
  | waiting | delayed | paused | prioritized => true
  | active | completed | failed => false

def JobState.unfinished : JobState → Bool
  | completed | failed => false
  | _ => true

structure Job (P : Type) where
  id : String
  data : P
  state : JobState
  (attemptsMade attempts : Nat)

variable {P : Type}

structure Bull (P : Type) where
  jobs : List (Job P)
  ids : (jobs.map Job.id).Nodup

namespace Bull

def getJob (q : Bull P) (id : String) : Option (Job P) := q.jobs.find? fun j => j.id = id

/-- `queue.add` with an id: nothing happens if the id is in use. -/
def add (q : Bull P) (job : Job P) : Bull P :=
  if h : job.id ∈ q.jobs.map Job.id then q
  else ⟨q.jobs ++ [job],by
    rw [map_append,map_singleton]
    exact nodup_append.mpr ⟨q.ids,nodup_singleton _,by
      intro a ha b hb hab
      rw [mem_singleton.mp hb] at hab
      exact h (hab ▸ ha)⟩⟩

/-- `job.remove()`; it throws, here `none`, while a worker holds the job. -/
def remove (q : Bull P) (id : String) : Option (Bull P) :=
  if (q.getJob id).any (·.state = .active) then none
  else some ⟨q.jobs.filter (·.id ≠ id),q.ids.sublist ((filter_sublist).map _)⟩

theorem map_id_ite {f : Job P → Job P} (jobs : List (Job P)) (id : String)
    (hf : ∀ j, (f j).id = j.id) :
    (jobs.map fun j => if j.id = id then f j else j).map Job.id = jobs.map Job.id := by
  rw [map_map]
  refine map_congr_left fun j _ => ?_
  dsimp only [Function.comp_apply]
  split
  · exact hf j
  · rfl

def modify (q : Bull P) (id : String) (f : Job P → Job P) (hf : ∀ j, (f j).id = j.id) : Bull P :=
  ⟨q.jobs.map fun j => if j.id = id then f j else j,by
    rw [map_id_ite q.jobs id hf]
    exact q.ids⟩

variable {q q' : Bull P} {job : Job P} {id : String}

theorem getJob_eq_some_iff : q.getJob id = some job ↔ job ∈ q.jobs ∧ job.id = id := by
  constructor
  · intro h
    exact ⟨mem_of_find?_eq_some h,by simpa using find?_some h⟩
  · rintro ⟨hmem,rfl⟩
    obtain ⟨found,hfound⟩ := Option.isSome_iff_exists.mp
      (find?_isSome.mpr ⟨job,hmem,decide_eq_true rfl⟩ :
        (q.jobs.find? fun j => j.id = job.id).isSome = true)
    have heq : found = job := inj_on_of_nodup_map q.ids (mem_of_find?_eq_some hfound) hmem
      (by simpa using find?_some hfound)
    rw [getJob,hfound,heq]

theorem getJob_eq_none_iff : q.getJob id = none ↔ id ∉ q.jobs.map Job.id := by
  simp [getJob]

theorem mem_jobs_remove (h : q.remove id = some q') (j : Job P) :
    j ∈ q'.jobs ↔ j ∈ q.jobs ∧ j.id ≠ id := by
  unfold remove at h
  split at h
  · cases h
  · cases h
    simp

theorem mem_jobs_add (h : job.id ∉ q.jobs.map Job.id) (j : Job P) :
    j ∈ (q.add job).jobs ↔ j ∈ q.jobs ∨ j = job := by
  unfold add
  rw [dif_neg h,mem_append,mem_singleton]

theorem eq_of_id (hj : j ∈ q.jobs) (hj' : j' ∈ q.jobs) (h : j.id = j'.id) : j = j' :=
  inj_on_of_nodup_map q.ids hj hj' h

end Bull

end Ploydok.Queue
