/-! Columns that several components read. -/

namespace Ploydok

/-- `apps.status`. -/
inductive AppStatus where
  | created | pending | building | running | serving | restarting | stopped | failed | deleting
  deriving DecidableEq, Repr

/-- `builds.status`. -/
inductive BuildStatus where
  | pending | running | succeeded | succeededWithWarning | failed | cancelled
  deriving DecidableEq, Repr

/-- The statuses that `updateBuildStatus` changes. -/
def BuildStatus.active : BuildStatus → Bool
  | pending | running => true
  | _ => false

inductive GitProvider where
  | github | gitlab | image
  deriving DecidableEq, Repr

/-- `build_method` of apps and of builds; a build is never `auto`. -/
inductive BuildMethod where
  | auto | docker | dockerfile | compose | nixpacks | railpack | static
  deriving DecidableEq, Repr

inductive RuntimeMode where
  | docker | swarm
  deriving DecidableEq, Repr

/-- A text that a condition of the source takes as true. -/
def truthy : Option String → Option String
  | some s => if s = "" then none else some s
  | none => none

theorem truthy_eq_some (h : truthy s = some t) : s = some t := by
  revert h
  fun_cases truthy s <;> rintro ⟨⟩
  rfl

end Ploydok
