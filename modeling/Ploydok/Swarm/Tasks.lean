import Ploydok.Runtime.Names
import Ploydok.Text.Number

/-! The tasks of a swarm service as the agent lists them, and how `taskIsRunning` and
`taskIsHealthy` of `worker/swarm-runner.ts` read their statuses: Docker writes a status as words,
and the worker looks for words inside the text. -/

namespace Ploydok.Swarm

open Text List
open Ploydok.Runtime (toLowerCase lowerChar)

inductive TimeUnit where
  | second
  | seconds
  | minutes
  | hours
  | days
  | weeks
  | months
  | years

def TimeUnit.text : TimeUnit → String
  | .second => "second"
  | .seconds => "seconds"
  | .minutes => "minutes"
  | .hours => "hours"
  | .days => "days"
  | .weeks => "weeks"
  | .months => "months"
  | .years => "years"

inductive HumanDuration where
  | lessThanASecond
  | aboutAMinute
  | aboutAnHour
  | count (n : Nat) (unit : TimeUnit)

def HumanDuration.words : HumanDuration → List String
  | .lessThanASecond => ["Less", "than", "a", "second"]
  | .aboutAMinute => ["About", "a", "minute"]
  | .aboutAnHour => ["About", "an", "hour"]
  | .count n unit => [toString n, unit.text]

inductive Health where
  | starting
  | healthy
  | unhealthy
  deriving DecidableEq

def Health.words : Health → List String
  | .starting => ["(health:", "starting)"]
  | .healthy => ["(healthy)"]
  | .unhealthy => ["(unhealthy)"]

inductive DockerStatus where
  | up (since : HumanDuration) (health : Option Health)
  | paused (since : HumanDuration)
  | restarting (exitCode : Nat) (since : HumanDuration)
  | exited (exitCode : Nat) (since : HumanDuration)
  | created
  | dead
  | removing

def exitWord (exitCode : Nat) : String := "(" ++ toString exitCode ++ ")"

def DockerStatus.words : DockerStatus → List String
  | .up since none => "Up" :: since.words
  | .up since (some health) => "Up" :: since.words ++ health.words
  | .paused since => "Up" :: since.words ++ ["(Paused)"]
  | .restarting exitCode since => "Restarting" :: exitWord exitCode :: since.words ++ ["ago"]
  | .exited exitCode since => "Exited" :: exitWord exitCode :: since.words ++ ["ago"]
  | .created => ["Created"]
  | .dead => ["Dead"]
  | .removing => ["Removal", "In", "Progress"]

def DockerStatus.text (s : DockerStatus) : String := " ".intercalate s.words

structure Container where
  (service image : Option String)
  status : Option DockerStatus

structure SwarmTaskSnapshot where
  (serviceName image status : String)

def snapshot (serviceName : String) (c : Container) : SwarmTaskSnapshot :=
  { serviceName := serviceName
    image := c.image.getD ""
    status := (c.status.map DockerStatus.text).getD "" }

/-- `list_service_tasks` on a host with these containers. -/
def listServiceTasks (serviceName : String) (containers : List Container) :
    List SwarmTaskSnapshot :=
  (containers.filter (·.service = some serviceName)).map (snapshot serviceName)

def taskIsRunning (status : String) : Bool :=
  let normalized := toLowerCase status.toList
  includes normalized "up ".toList || includes normalized "running".toList

def taskIsHealthy (status : String) : Bool :=
  let normalized := toLowerCase status.toList
  taskIsRunning status && !includes normalized "unhealthy".toList

def reportedHealthy (status : String) : Bool := includes status.toList "(healthy)".toList

/-- The task runs the image, which Docker may have pinned to a digest. -/
def SwarmTaskSnapshot.runs (task : SwarmTaskSnapshot) (imageRef : String) : Bool :=
  task.image = imageRef || startsWith task.image.toList (imageRef ++ "@").toList

/-! ### Words of a status -/

theorem toLowerCase_intercalate (ss : List (List Char)) :
    toLowerCase ([' '].intercalate ss) = [' '].intercalate (ss.map toLowerCase) := by
  induction ss with
  | nil => rfl
  | cons s ss ih =>
    cases ss with
    | nil => simp
    | cons t ss =>
      have hblank : lowerChar ' ' = [' '] := by decide
      have hsplit : ∀ us vs : List Char, toLowerCase (us ++ ' ' :: vs) =
          toLowerCase us ++ ' ' :: toLowerCase vs := by
        intro us vs
        simp [toLowerCase,hblank]
      have hcons : ∀ s t : List Char, ∀ ss, [' '].intercalate (s :: t :: ss) =
          s ++ ' ' :: [' '].intercalate (t :: ss) := by simp
      rw [hcons,hsplit,ih,map_cons,map_cons,map_cons,hcons]

variable (s : DockerStatus) {w : List Char} {c : Char} {word : String}

theorem DockerStatus.words_ne_nil : s.words ≠ [] := by
  rcases s with ⟨_,_ | _⟩ | _ | _ | _ | _ | _ | _ <;> exact cons_ne_nil _ _

theorem DockerStatus.toList_text :
    s.text.toList = [' '].intercalate (s.words.map String.toList) := by
  have hblank : " ".toList = [' '] := String.toList_ofList
  rw [text,String.toList_intercalate,hblank]

theorem DockerStatus.infix_text_iff (hw : ' ' ∉ w) :
    w <:+: s.text.toList ↔ ∃ word ∈ s.words, w <:+: word.toList := by
  rw [toList_text,infix_intercalate_iff hw (by simpa using s.words_ne_nil)]
  simp

theorem DockerStatus.infix_lower_text_iff (hw : ' ' ∉ w) :
    w <:+: toLowerCase s.text.toList ↔ ∃ word ∈ s.words, w <:+: toLowerCase word.toList := by
  rw [toList_text,toLowerCase_intercalate, infix_intercalate_iff hw (by simpa using s.words_ne_nil)]
  simp

/-- A word in which nothing is found that the worker looks for. -/
def Quiet (word : String) : Prop :=
  ¬ ['u', 'p'] <:+: toLowerCase word.toList ∧
    ¬ "running".toList <:+: toLowerCase word.toList ∧
    ¬ "unhealthy".toList <:+: toLowerCase word.toList ∧ ¬ "(healthy)".toList <:+: word.toList

instance (word : String) : Decidable (Quiet word) := by
  unfold Quiet
  infer_instance

theorem lowerChar_of_isDigit (h : c.isDigit = true) : lowerChar c = [c] := by
  have hc : 48 ≤ c.toNat ∧ c.toNat ≤ 57 := by
    simpa [Char.isDigit,Char.le_def,UInt32.le_iff_toNat_le] using h
  have hupper : ¬ ('A' ≤ c ∧ c ≤ 'Z') := by
    rintro ⟨hA,-⟩
    have : 65 ≤ c.toNat := hA
    omega
  unfold lowerChar
  rw [if_neg hupper]
  -- the two other characters with an ASCII lower case are far above the digits
  split_ifs with hdot hkelvin
  · subst hdot
    exact absurd hc.2 (by decide)
  · subst hkelvin
    exact absurd hc.2 (by decide)
  · rfl

theorem quiet_of_not_mem (hlower : 'u' ∉ toLowerCase word.toList)
    (hword : 'h' ∉ word.toList) : Quiet word :=
  ⟨fun h => hlower (h.mem (by decide)),fun h => hlower (h.mem (by decide)),
    fun h => hlower (h.mem (by decide)),fun h => hword (h.mem (by decide))⟩

theorem toLowerCase_toString (n : Nat) : toLowerCase (toString n).toList = (toString n).toList := by
  have hid : ∀ cs : List Char, (∀ c ∈ cs, c.isDigit = true) → toLowerCase cs = cs := by
    intro cs hcs
    induction cs with
    | nil => rfl
    | cons c cs ih =>
      have hrest := ih fun d hd => hcs d (mem_cons_of_mem _ hd)
      rw [toLowerCase,flatMap_cons,lowerChar_of_isDigit (hcs c mem_cons_self)]
      exact congrArg (c :: ·) hrest
  exact hid _ fun c hc => isDigit_of_mem_toString hc

theorem not_mem_toString (hc : c.isDigit = false) (n : Nat) : c ∉ (toString n).toList := by
  intro h
  rw [isDigit_of_mem_toString h] at hc
  cases hc

theorem quiet_toString (n : Nat) : Quiet (toString n) :=
  quiet_of_not_mem ((toLowerCase_toString n).symm ▸ not_mem_toString (by decide) n)
    (not_mem_toString (by decide) n)

theorem quiet_exitWord (n : Nat) : Quiet (exitWord n) := by
  have hchars : (exitWord n).toList = '(' :: ((toString n).toList ++ [')']) := by
    have hopen : "(".toList = ['('] := String.toList_ofList
    have hclose : ")".toList = [')'] := String.toList_ofList
    rw [exitWord,String.toList_append,String.toList_append,hopen,hclose]
    rfl
  have hlower : toLowerCase (exitWord n).toList = (exitWord n).toList := by
    have hparens : lowerChar '(' = ['('] ∧ lowerChar ')' = [')'] := by decide
    have hdigits := toLowerCase_toString n
    unfold toLowerCase at hdigits ⊢
    rw [hchars,flatMap_cons,flatMap_append,hdigits,flatMap_singleton, hparens.1,hparens.2]
    rfl
  have hnot : ∀ c : Char, c.isDigit = false → c ≠ '(' → c ≠ ')' → c ∉ (exitWord n).toList := by
    intro c hdigit hopen hclose
    rw [hchars,mem_cons,mem_append,mem_singleton]
    rintro (h | h | h)
    · exact hopen h
    · exact not_mem_toString hdigit n h
    · exact hclose h
  apply quiet_of_not_mem
  · rw [hlower]
    exact hnot 'u' (by decide) (by decide) (by decide)
  · exact hnot 'h' (by decide) (by decide) (by decide)

theorem quiet_literals : ∀ word ∈ ["Less", "than", "a", "second", "About", "minute", "an", "hour",
    "seconds", "minutes", "hours", "days", "weeks", "months", "years", "(health:", "starting)",
    "(Paused)", "Restarting", "ago", "Exited", "Created", "Dead", "Removal", "In", "Progress"],
    Quiet word := by decide +kernel

theorem HumanDuration.quiet (d : HumanDuration) : ∀ word ∈ d.words, Quiet word := by
  intro word hword
  cases d with
  | lessThanASecond =>
    simp only [words,mem_cons,not_mem_nil,or_false] at hword
    rcases hword with rfl | rfl | rfl | rfl <;> exact quiet_literals _ (by decide)
  | aboutAMinute | aboutAnHour =>
    simp only [words,mem_cons,not_mem_nil,or_false] at hword
    rcases hword with rfl | rfl | rfl <;> exact quiet_literals _ (by decide)
  | count n unit =>
    rcases mem_cons.mp hword with rfl | hword
    · exact quiet_toString n
    · rw [mem_singleton.mp hword]
      cases unit <;> exact quiet_literals _ (by decide)

/-! ### What passes -/

def DockerStatus.isUp : DockerStatus → Bool
  | .up _ _ | .paused _ => true
  | _ => false

def DockerStatus.isUnhealthy : DockerStatus → Bool
  | .up _ (some .unhealthy) => true
  | _ => false

def DockerStatus.isHealthy : DockerStatus → Bool
  | .up _ (some .healthy) => true
  | _ => false

theorem DockerStatus.quiet_or (h : word ∈ s.words) :
    Quiet word ∨ word = "Up" ∧ s.isUp = true ∨ word = "(healthy)" ∧ s.isHealthy = true ∨
      word = "(unhealthy)" ∧ s.isUnhealthy = true := by
  have hlit := quiet_literals word
  cases s with
  | up since health =>
    have hwords : (up since health).words = "Up" :: (since.words ++ health.elim [] Health.words) := by
      cases health <;> simp [words]
    rw [hwords,mem_cons,mem_append] at h
    rcases h with rfl | h | h
    · exact .inr (.inl ⟨rfl,rfl⟩)
    · exact .inl (since.quiet word h)
    · rcases health with _ | _ | _ | _
      · cases h
      · rcases mem_pair.mp h with rfl | rfl <;> exact .inl (hlit (by decide))
      · exact .inr (.inr (.inl ⟨mem_singleton.mp h,rfl⟩))
      · exact .inr (.inr (.inr ⟨mem_singleton.mp h,rfl⟩))
  | paused since =>
    simp only [words,mem_cons,mem_append,cons_append,not_mem_nil,or_false] at h
    rcases h with rfl | h | rfl
    · exact .inr (.inl ⟨rfl,rfl⟩)
    · exact .inl (since.quiet word h)
    · exact .inl (hlit (by decide))
  | restarting n since | exited n since =>
    simp only [words,mem_cons,mem_append,cons_append,not_mem_nil,or_false] at h
    rcases h with rfl | rfl | h | rfl
    · exact .inl (hlit (by decide))
    · exact .inl (quiet_exitWord n)
    · exact .inl (since.quiet word h)
    · exact .inl (hlit (by decide))
  | created | dead => exact .inl (hlit (by rw [mem_singleton.mp h]; decide))
  | removing =>
    simp only [words,mem_cons,not_mem_nil,or_false] at h
    rcases h with rfl | rfl | rfl <;> exact .inl (hlit (by decide))

theorem found_in_loud_words : (¬ "running".toList <:+: toLowerCase "Up".toList ∧
      ¬ "unhealthy".toList <:+: toLowerCase "Up".toList ∧ ¬ "(healthy)".toList <:+: "Up".toList) ∧
    (¬ ['u', 'p'] <:+: toLowerCase "(healthy)".toList ∧
      ¬ "running".toList <:+: toLowerCase "(healthy)".toList ∧
      ¬ "unhealthy".toList <:+: toLowerCase "(healthy)".toList) ∧
    (¬ ['u', 'p'] <:+: toLowerCase "(unhealthy)".toList ∧
      ¬ "running".toList <:+: toLowerCase "(unhealthy)".toList ∧
      "unhealthy".toList <:+: toLowerCase "(unhealthy)".toList ∧
      ¬ "(healthy)".toList <:+: "(unhealthy)".toList) := by decide +kernel

theorem DockerStatus.isUp_of_infix {s : DockerStatus}
    (h : ['u', 'p'] <:+: toLowerCase s.text.toList) : s.isUp = true := by
  obtain ⟨word,hword,hin⟩ := (s.infix_lower_text_iff (by decide)).mp h
  obtain ⟨-,⟨hhealthy,-⟩,hunhealthy,-⟩ := found_in_loud_words
  rcases s.quiet_or hword with hquiet | ⟨-,hup⟩ | ⟨rfl,-⟩ | ⟨rfl,-⟩
  · exact absurd hin hquiet.1
  · exact hup
  · exact absurd hin hhealthy
  · exact absurd hin hunhealthy

theorem DockerStatus.not_infix_running : ¬ "running".toList <:+: toLowerCase s.text.toList := by
  intro h
  obtain ⟨word,hword,hin⟩ := (s.infix_lower_text_iff (by decide)).mp h
  obtain ⟨⟨hup,-⟩,⟨-,hhealthy,-⟩,-,hunhealthy,-⟩ := found_in_loud_words
  rcases s.quiet_or hword with hquiet | ⟨rfl,-⟩ | ⟨rfl,-⟩ | ⟨rfl,-⟩
  · exact hquiet.2.1 hin
  · exact hup hin
  · exact hhealthy hin
  · exact hunhealthy hin

theorem DockerStatus.infix_unhealthy_iff :
    "unhealthy".toList <:+: toLowerCase s.text.toList ↔ s.isUnhealthy = true := by
  rw [s.infix_lower_text_iff (by decide)]
  obtain ⟨⟨-,hup,-⟩,⟨-,-,hhealthy⟩,-,-,hunhealthy,-⟩ := found_in_loud_words
  constructor
  · rintro ⟨word,hword,hin⟩
    rcases s.quiet_or hword with hquiet | ⟨rfl,-⟩ | ⟨rfl,-⟩ | ⟨-,hs⟩
    · exact absurd hin hquiet.2.2.1
    · exact absurd hin hup
    · exact absurd hin hhealthy
    · exact hs
  · intro h
    rcases s with ⟨d,_ | _ | _ | _⟩ | _ | _ | _ | _ | _ | _ <;> try cases h
    exact ⟨"(unhealthy)",by simp [words,Health.words],hunhealthy⟩

theorem DockerStatus.infix_healthy_iff :
    "(healthy)".toList <:+: s.text.toList ↔ s.isHealthy = true := by
  rw [s.infix_text_iff (by decide)]
  obtain ⟨⟨-,-,hup⟩,-,-,-,-,hunhealthy⟩ := found_in_loud_words
  constructor
  · rintro ⟨word,hword,hin⟩
    rcases s.quiet_or hword with hquiet | ⟨rfl,-⟩ | ⟨-,hs⟩ | ⟨rfl,-⟩
    · exact absurd hin hquiet.2.2.2
    · exact absurd hin hup
    · exact hs
    · exact absurd hin hunhealthy
  · intro h
    rcases s with ⟨d,_ | _ | _ | _⟩ | _ | _ | _ | _ | _ | _ <;> try cases h
    exact ⟨"(healthy)",by simp [words,Health.words],infix_rfl⟩

theorem DockerStatus.infix_up_of_isUp {s : DockerStatus} (h : s.isUp = true) :
    "up ".toList <:+: toLowerCase s.text.toList := by
  obtain ⟨word,rest,hwords⟩ : ∃ word rest, s.words = "Up" :: word :: rest := by
    have hsince : ∀ d : HumanDuration, ∃ word rest, d.words = word :: rest := by
      intro d
      cases d <;> exact ⟨_,_,rfl⟩
    rcases s with ⟨d,_ | _⟩ | d | _ | _ | _ | _ | _ <;> try cases h
    all_goals
      obtain ⟨word,rest,hd⟩ := hsince d
      simp only [words,hd,cons_append]
      exact ⟨_,_,rfl⟩
  have hup : toLowerCase "Up".toList = ['u', 'p'] := by decide
  have hblank : "up ".toList = ['u', 'p'] ++ [' '] := String.toList_ofList
  rw [toList_text,hwords,toLowerCase_intercalate,hblank]
  simp only [map_cons,hup]
  have hcons : ∀ (a b : List Char) (ss : List (List Char)),
      [' '].intercalate (a :: b :: ss) = (a ++ [' ']) ++ [' '].intercalate (b :: ss) := by simp
  rw [hcons]
  exact (prefix_append _ _).isInfix

theorem taskIsHealthy_text : taskIsHealthy s.text = (s.isUp && !s.isUnhealthy) := by
  have hrunning : taskIsRunning s.text = s.isUp := by
    unfold taskIsRunning
    rw [Bool.eq_iff_iff,Bool.or_eq_true,includes_iff,includes_iff]
    constructor
    · rintro (h | h)
      · have hup : ['u', 'p'] <:+: "up ".toList := by decide
        exact DockerStatus.isUp_of_infix (hup.trans h)
      · exact absurd h s.not_infix_running
    · exact fun h => .inl (DockerStatus.infix_up_of_isUp h)
  have hunhealthy : includes (toLowerCase s.text.toList) "unhealthy".toList = s.isUnhealthy := by
    rw [Bool.eq_iff_iff,includes_iff]
    exact s.infix_unhealthy_iff
  unfold taskIsHealthy
  dsimp only
  rw [hrunning,hunhealthy]

theorem reportedHealthy_text : reportedHealthy s.text = s.isHealthy := by
  rw [Bool.eq_iff_iff,reportedHealthy,includes_iff]
  exact s.infix_healthy_iff

def Container.upAndNotUnhealthy (c : Container) : Bool :=
  c.status.any fun s => s.isUp && !s.isUnhealthy

def Container.isHealthy (c : Container) : Bool := c.status.any DockerStatus.isHealthy

def Container.runs (c : Container) (imageRef : String) : Bool :=
  (snapshot "" c).runs imageRef

theorem status_snapshot {p : String → Bool} (hempty : p "" = false)
    (htext : ∀ s : DockerStatus, p s.text = q s) (serviceName : String) (c : Container) :
    p (snapshot serviceName c).status = c.status.any q := by
  cases hs : c.status with
  | none => simpa [snapshot,hs] using hempty
  | some s => simpa [snapshot,hs] using htext s

theorem taskIsHealthy_snapshot (serviceName : String) (c : Container) :
    taskIsHealthy (snapshot serviceName c).status = c.upAndNotUnhealthy :=
  status_snapshot (by decide) taskIsHealthy_text serviceName c

theorem reportedHealthy_snapshot (serviceName : String) (c : Container) :
    reportedHealthy (snapshot serviceName c).status = c.isHealthy :=
  status_snapshot (by decide) reportedHealthy_text serviceName c

theorem Container.upAndNotUnhealthy_of_isHealthy {c : Container} (h : c.isHealthy = true) :
    c.upAndNotUnhealthy = true := by
  unfold isHealthy at h
  unfold upAndNotUnhealthy
  rcases hs : c.status with _ | s
  · rw [hs] at h
    cases h
  · rw [hs] at h
    rcases s with ⟨_,_ | _ | _ | _⟩ | _ | _ | _ | _ | _ | _ <;> first | rfl | cases h

end Ploydok.Swarm
