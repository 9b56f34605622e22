import Mathlib.Data.Fintype.Pi
import Ploydok.Text.Number

/-! Internet addresses and their texts: the addresses themselves, the texts the URL standard
writes for them, the strict texts that `net.isIP` recognises, and the generous reading of an
IPv4 host (octal and hexadecimal parts, fewer than four parts) of the URL standard. -/

namespace Ploydok.Net

open List

open Ploydok.Text (parseDigits parseDigits_toString isDigit_of_mem_toString)

structure Ipv4 where
  (a b c d : Fin 256)
  deriving DecidableEq, Repr

structure Ipv6 where
  pieces : Fin 8 → Fin 65536
  deriving DecidableEq

inductive Address where
  | ipv4 (address : Ipv4)
  | ipv6 (address : Ipv6)
  deriving DecidableEq

instance neZero_octet : NeZero 256 := ⟨by decide⟩

instance neZero_piece : NeZero 65536 := ⟨by decide⟩

instance neZero_pieces : NeZero 8 := ⟨by decide⟩

def Ipv4.ofNat (n : Nat) : Ipv4 :=
  ⟨Fin.ofNat 256 (n / 256 ^ 3),Fin.ofNat 256 (n / 256 ^ 2),Fin.ofNat 256 (n / 256),
    Fin.ofNat 256 n⟩

def Ipv6.ofPieces (ps : List (Fin 65536)) : Option Ipv6 :=
  if ps.length = 8 then some ⟨fun i => ps.getD i 0⟩ else none

/-- The IPv4 address that an IPv6 address of the form `::ffff:a.b.c.d` carries. -/
def Ipv6.mapped (p : Ipv6) : Option Ipv4 :=
  if (∀ i : Fin 8, i.val < 5 → p.pieces i = 0) ∧ p.pieces 5 = 0xffff then
    some (Ipv4.ofNat ((p.pieces 6).val * 65536 + (p.pieces 7).val))
  else none

def Ipv4.text (p : Ipv4) : List Char :=
  ['.'].intercalate ([p.a, p.b, p.c, p.d].map fun n => (toString n.val).toList)

/-- The start and the length of the first longest run of two or more zero pieces, written as `::`.
-/
def zeroRun (ps : List (Fin 65536)) : Option (Nat × Nat) :=
  let runs := (range ps.length).map fun i => (i, ((ps.drop i).takeWhile (· = 0)).length)
  let best := runs.foldl (fun best run => if best.2 < run.2 then run else best) (0, 0)
  if 2 ≤ best.2 then some best else none

def writePieces (ps : List (Fin 65536)) : List Char :=
  [':'].intercalate (ps.map fun n => Nat.toDigits 16 n.val)

def Ipv6.text (p : Ipv6) : List Char :=
  let ps := ofFn p.pieces
  match zeroRun ps with
  | none => writePieces ps
  | some (i, n) => writePieces (ps.take i) ++ [':', ':'] ++ writePieces (ps.drop (i + n))

/-! ### The texts that `net.isIP` recognises -/

def readOctet (cs : List Char) : Option (Fin 256) :=
  match parseDigits cs with
  | none => none
  | some n => if h : n < 256 ∧ (toString n).toList = cs then some ⟨n,h.1⟩ else none

def readDotted (cs : List Char) : Option Ipv4 :=
  match (cs.splitOn '.').mapM readOctet with
  | some [a, b, c, d] => some ⟨a,b,c,d⟩
  | _ => none

def readDigit (base : Nat) (c : Char) : Option Nat :=
  let value :=
    if c.isDigit then some (c.toNat - '0'.toNat)
    else if 'a' ≤ c ∧ c ≤ 'f' then some (c.toNat - 'a'.toNat + 10)
    else if 'A' ≤ c ∧ c ≤ 'F' then some (c.toNat - 'A'.toNat + 10)
    else none
  value.filter (· < base)

def readDigits (base : Nat) (cs : List Char) : Option Nat :=
  cs.foldlM (fun n c => (readDigit base c).map (base * n + ·)) 0

def readPiece (cs : List Char) : Option (Fin 65536) :=
  if cs ≠ [] ∧ cs.length ≤ 4 then (readDigits 16 cs).map (Fin.ofNat 65536) else none

/-- Groups between colons. The last one may be an IPv4 address in place of two pieces. -/
def readGroups (final : Bool) : List (List Char) → Option (List (Fin 65536))
  | [] => some []
  | [last] =>
    match readPiece last, final, readDotted last with
    | some p, _, _ => some [p]
    | none, true, some q =>
      some [Fin.ofNat 65536 (q.a.val * 256 + q.b.val), Fin.ofNat 65536 (q.c.val * 256 + q.d.val)]
    | none, _, _ => none
  | group :: groups => do
    let p ← readPiece group
    let ps ← readGroups final groups
    return p :: ps

/-- The texts before and behind the first `::`. -/
def splitDouble : List Char → Option (List Char × List Char)
  | ':' :: ':' :: rest => some ([], rest)
  | c :: rest => (splitDouble rest).map fun parts => (c :: parts.1, parts.2)
  | [] => none

def readSide (final : Bool) (cs : List Char) : Option (List (Fin 65536)) :=
  if cs = [] then some [] else readGroups final (cs.splitOn ':')

/-- An IPv6 address, with at most one `::` that stands for one zero piece or more. -/
def readIpv6 (cs : List Char) : Option Ipv6 :=
  match splitDouble cs with
  | none => (readSide true cs).bind Ipv6.ofPieces
  | some (front, back) => do
    let ps ← readSide false front
    let qs ← readSide true back
    if ps.length + qs.length ≤ 7 then
      Ipv6.ofPieces (ps ++ replicate (8 - ps.length - qs.length) 0 ++ qs)
    else none

/-- The text before a zone such as `%eth0`, if what follows the `%` can be one. -/
def dropZone (cs : List Char) : List Char :=
  match cs.span (· ≠ '%') with
  | (front, _ :: zone) =>
    if zone ≠ [] ∧ zone.all (fun c => c.isAlphanum || c = '-' || c = '.' || c = ':') then front
    else cs
  | (_, []) => cs

inductive Family where
  | v4
  | v6
  deriving DecidableEq, Repr

/-- `net.isIP`, with `none` for its answer 0. -/
def isIP (cs : List Char) : Option Family :=
  if (readDotted cs).isSome then some .v4
  else if (readIpv6 (dropZone cs)).isSome then some .v6
  else none

/-- One number of an IPv4 host: hexadecimal behind `0x`, octal behind another `0`. -/
def readNumber : List Char → Option Nat
  | [] => none
  | '0' :: 'x' :: rest | '0' :: 'X' :: rest => readDigits 16 rest
  | '0' :: c :: rest => readDigits 8 (c :: rest)
  | cs => readDigits 10 cs

/-- The numbers of an IPv4 host. All but the last are octets; the last fills what is left. -/
def ofNumbers (ns : List Nat) : Option Ipv4 :=
  match ns.getLast? with
  | none => none
  | some last =>
    if ns.length ≤ 4 ∧ (∀ n ∈ ns.dropLast, n ≤ 255) ∧ last < 256 ^ (5 - ns.length) then
      some (Ipv4.ofNat (last + ((ns.dropLast.zipIdx).map fun n => n.1 * 256 ^ (3 - n.2)).sum))
    else none

def readHostIpv4 (cs : List Char) : Option Ipv4 :=
  let parts := cs.splitOn '.'
  let parts := if 1 < parts.length ∧ parts.getLast? = some [] then parts.dropLast else parts
  (parts.mapM readNumber).bind ofNumbers

theorem readOctet_toString (n : Fin 256) : readOctet (toString n.val).toList = some n := by
  simp only [readOctet,parseDigits_toString]
  exact dif_pos ⟨n.isLt,trivial⟩

theorem splitOn_text (p : Ipv4) :
    p.text.splitOn '.' = [p.a, p.b, p.c, p.d].map fun n => (toString n.val).toList := by
  refine splitOn_intercalate '.' ?_ (by simp)
  intro part hpart hdot
  obtain ⟨n,-,rfl⟩ := mem_map.mp hpart
  exact absurd (isDigit_of_mem_toString hdot) (by decide)

theorem readDotted_text (p : Ipv4) : readDotted p.text = some p := by
  have hread : ([p.a, p.b, p.c, p.d].map fun n => (toString n.val).toList).mapM readOctet =
      some [p.a, p.b, p.c, p.d] := by
    simp only [map_cons,map_nil,mapM_cons,mapM_nil,readOctet_toString]
    rfl
  rw [readDotted,splitOn_text,hread]

theorem isIP_text (p : Ipv4) : isIP p.text = some .v4 := by
  simp [isIP,readDotted_text]

theorem mem_text {p : Ipv4} (h : ch ∈ p.text) : ch.isDigit = true ∨ ch = '.' := by
  simp only [Ipv4.text,map_cons,map_nil,intercalate,intersperse] at h
  simp only [flatten_cons,flatten_nil,append_nil,mem_append, mem_singleton] at h
  rcases h with h | h | h | h | h | h | h
  all_goals first | exact .inr h | exact .inl (isDigit_of_mem_toString h)

theorem getLast?_text (p : Ipv4) : p.text.getLast? ≠ some '.' := by
  obtain ⟨front,hfront⟩ : ∃ front, p.text = front ++ (toString p.d.val).toList := by
    refine ⟨(toString p.a.val).toList ++ ['.'] ++ (toString p.b.val).toList ++ ['.'] ++
      (toString p.c.val).toList ++ ['.'],?_⟩
    simp [Ipv4.text,intercalate,intersperse]
  have hne : (toString p.d.val).toList ≠ [] := by simp [toString,Nat.repr]
  rw [hfront,getLast?_append_of_ne_nil _ hne]
  intro h
  exact absurd (isDigit_of_mem_toString (mem_of_getLast? h)) (by decide)

theorem splitOn_cons_of_ne (h : c ≠ sep) (cs : List Char) :
    ∃ first rest, (c :: cs).splitOn sep = (c :: first) :: rest := by
  have hsplit : (c :: cs).splitOn sep = (cs.splitOn sep).modifyHead (cons c) := by
    unfold splitOn
    rw [splitOnP_cons_eq_if_modifyHead,if_neg (by simpa using h)]
  rcases hrest : cs.splitOn sep with _ | ⟨first,rest⟩
  · exact absurd hrest (splitOnP_ne_nil _ _)
  · exact ⟨first,rest,by rw [hsplit,hrest]; rfl⟩

variable (cs : List Char)

theorem readOctet_bracket : readOctet ('[' :: cs) = none := by
  simp [readOctet,parseDigits,show Char.isDigit '[' = false by decide]

theorem readPiece_bracket : readPiece ('[' :: cs) = none := by
  have hdigit : readDigit 16 '[' = none := by decide
  simp [readPiece,readDigits,hdigit]

theorem readDotted_bracket : readDotted ('[' :: cs) = none := by
  obtain ⟨first,rest,h⟩ := splitOn_cons_of_ne (show '[' ≠ '.' by decide) cs
  simp [readDotted,h,readOctet_bracket]

theorem readSide_bracket (final : Bool) (cs : List Char) : readSide final ('[' :: cs) = none := by
  obtain ⟨first,rest,h⟩ := splitOn_cons_of_ne (show '[' ≠ ':' by decide) cs
  cases rest with
  | nil => simp [readSide,h,readGroups,readPiece_bracket,readDotted_bracket]
  | cons => simp [readSide,h,readGroups,readPiece_bracket]

theorem readIpv6_bracket : readIpv6 ('[' :: cs) = none := by
  have hsplit : splitDouble ('[' :: cs) =
      (splitDouble cs).map fun parts => ('[' :: parts.1, parts.2) := by
    rw [splitDouble]
    rintro rest ⟨⟩
  cases hdouble : splitDouble cs with
  | none | some => simp [readIpv6,hsplit,hdouble,readSide_bracket]

theorem dropZone_bracket : ∃ rest, dropZone ('[' :: cs) = '[' :: rest := by
  have hspan : ('[' :: cs).span (· ≠ '%') =
      ('[' :: cs.takeWhile (· ≠ '%'), cs.dropWhile (· ≠ '%')) := by
    simp [span_eq_takeWhile_dropWhile]
  unfold dropZone
  rw [hspan]
  cases hzone : cs.dropWhile (· ≠ '%') with
  | nil => exact ⟨cs,rfl⟩
  | cons c zone =>
    simp only
    split
    · exact ⟨_,rfl⟩
    · exact ⟨cs,rfl⟩

/-- A host in brackets is no address to `net.isIP`. -/
theorem isIP_bracket : isIP ('[' :: cs) = none := by
  obtain ⟨rest,h⟩ := dropZone_bracket cs
  simp [isIP,readDotted_bracket,h,readIpv6_bracket]

end Ploydok.Net
