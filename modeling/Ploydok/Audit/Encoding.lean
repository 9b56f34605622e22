import Ploydok.Audit.Agreement

/-! What an audit payload and a hashed chain text say about their row. Both join fields
with a separator that they do not escape, and the payload writes null as an arrow. Where the
fields hold neither, both determine what they are built from. -/

namespace Ploydok.Audit

open Text List

def AuditRow.SameSigned (a b : AuditRow) : Prop :=
  a.id = b.id ∧ a.createdAt = b.createdAt ∧ a.userId = b.userId ∧ a.action = b.action ∧
    a.targetType = b.targetType ∧ a.targetId = b.targetId ∧ a.metadata = b.metadata ∧
    a.prevHash = b.prevHash ∧ a.hash = b.hash

def AuditRow.SameChained (a b : AuditRow) : Prop :=
  a.prevHash = b.prevHash ∧ a.action = b.action ∧ a.targetType = b.targetType ∧
    a.targetId = b.targetId ∧ a.metadata = b.metadata

def AuditEntry.SameSigned (a b : AuditEntry) : Prop :=
  a.id = b.id ∧ a.createdAt / 1000000 = b.createdAt / 1000000 ∧ a.userId = b.userId ∧
    a.action = b.action ∧ a.targetType = b.targetType ∧ a.targetId = b.targetId ∧
    a.metadata = b.metadata ∧ a.prevHash = b.prevHash ∧ a.hash = b.hash

def plainTexts (userId : Option String) (action targetType targetId : String)
    (prevHash hash : Option String) : List String :=
  [userId.getD "->", action, targetType, targetId, prevHash.getD "->", hash.getD "->"]

def NoLineFeed (texts : List String) : Prop := ∀ text ∈ texts, '\n' ∉ text.toList

instance (texts : List String) : Decidable (NoLineFeed texts) := by
  unfold NoLineFeed
  infer_instance

def NoArrow (fields : List (Option String)) : Prop := some "->" ∉ fields

instance (fields : List (Option String)) : Decidable (NoArrow fields) := by
  unfold NoArrow
  infer_instance

def AuditRow.plainTexts (row : AuditRow) : List String :=
  Audit.plainTexts row.userId row.action row.targetType row.targetId row.prevHash row.hash

def AuditRow.nullable (row : AuditRow) : List (Option String) :=
  [row.userId, row.prevHash, row.hash]

def AuditEntry.plainTexts (entry : AuditEntry) : List String :=
  Audit.plainTexts entry.userId entry.action entry.targetType entry.targetId entry.prevHash
    entry.hash

def AuditEntry.nullable (entry : AuditEntry) : List (Option String) :=
  [entry.userId, entry.prevHash, entry.hash]

theorem getD_arrow_inj (ha : a ≠ some "->") (hb : b ≠ some "->") (h : a.getD "->" = b.getD "->") :
    a = b := by
  cases a with
  | none =>
    cases b with
    | none => rfl
    | some t => exact absurd (congrArg some h).symm hb
  | some s =>
    cases b with
    | none => exact absurd (congrArg some h) ha
    | some t => exact congrArg some h

theorem lineFeed_not_mem_toISOString (ms : Int) : '\n' ∉ (toISOString ms).toList :=
  not_mem_isoMillis (fun y => not_mem_signedYear (by decide) (by decide) 6 y) (by decide)
    (by decide) ms

theorem lineFeed_not_mem_toRfc3339Millis (nanos : Int) : '\n' ∉ (toRfc3339Millis nanos).toList :=
  not_mem_isoMillis (fun y => not_mem_signedYear (by decide) (by decide) 4 y) (by decide)
    (by decide) _

theorem lineFeed_not_mem_toString (n : Nat) : '\n' ∉ (toString n).toList := by
  intro h
  exact absurd (isDigit_of_mem_toString h) (by decide)

section Lines

variable {sha256Hex : String → String} (hex : ∀ x, '\n' ∉ (sha256Hex x).toList)
include hex

omit hex in
theorem append_payload_inj (hfront : '\n' ∉ front.toList) (ha : NoLineFeed as)
    (hlen : as.length = bs.length)
    (h : front ++ "\n".intercalate ("v1" :: as) = front' ++ "\n".intercalate ("v1" :: bs)) :
    front = front' ∧ as = bs := by
  rw [← String.intercalate_cons_append,← String.intercalate_cons_append] at h
  have hlines : ∀ a ∈ (front ++ "v1") :: as, '\n' ∉ a.toList := by
    intro a hmem
    rcases mem_cons.mp hmem with rfl | hmem
    · rw [String.toList_append,mem_append,not_or]
      exact ⟨hfront,by decide⟩
    · exact ha a hmem
  obtain ⟨hfirst,hrest⟩ := cons.inj (intercalate_lines_inj hlines (by simp [hlen]) h)
  have hchars := congrArg String.toList hfirst
  rw [String.toList_append,String.toList_append] at hchars
  exact ⟨String.toList_inj.mp (append_cancel_right hchars),hrest⟩

/-- With no line feed in a field, the lines are read back one by one. -/
theorem canonicalLines_inj {id id' : Nat} {userId userId' prevHash prevHash' : Option String}
    {hash hash' : Option String} {action targetType targetId metadata : String}
    {action' targetType' targetId' metadata' : String}
    (hfront : '\n' ∉ front.toList) (hiso : '\n' ∉ iso.toList)
    (hline : NoLineFeed (plainTexts userId action targetType targetId prevHash hash))
    (ha : NoArrow [userId, prevHash, hash]) (hb : NoArrow [userId', prevHash', hash'])
    (hmeta : sha256Hex metadata = sha256Hex metadata' → metadata = metadata')
    (h : front ++ canonicalLines sha256Hex id iso userId action targetType targetId metadata
        prevHash hash =
      front' ++ canonicalLines sha256Hex id' iso' userId' action' targetType' targetId' metadata'
        prevHash' hash') :
    id = id' ∧ iso = iso' ∧ userId = userId' ∧ action = action' ∧ targetType = targetType' ∧
      targetId = targetId' ∧ metadata = metadata' ∧ prevHash = prevHash' ∧ hash = hash' := by
  have hlines : NoLineFeed [toString id, iso, userId.getD "->", action, targetType, targetId,
      sha256Hex metadata, prevHash.getD "->", hash.getD "->"] := by
    simp only [NoLineFeed,plainTexts,forall_mem_cons] at hline ⊢
    obtain ⟨huser,haction,htype,htarget,hprev,hhash,hnil⟩ := hline
    exact ⟨lineFeed_not_mem_toString id,hiso,huser,haction,htype,htarget,hex metadata,hprev,
      hhash,hnil⟩
  unfold canonicalLines at h
  obtain ⟨-,hfields⟩ := append_payload_inj hfront hlines (by simp) h
  simp only [cons.injEq,and_true] at hfields
  simp only [NoArrow,mem_cons,not_mem_nil,or_false,not_or,eq_comm] at ha hb
  obtain ⟨hid,hiso,huser,haction,htype,htarget,hdigest,hprev,hhash⟩ := hfields
  exact ⟨toString_nat_inj hid,hiso,getD_arrow_inj ha.1 hb.1 huser,haction,htype,htarget,
    hmeta hdigest,getD_arrow_inj ha.2.1 hb.2.1 hprev,getD_arrow_inj ha.2.2 hb.2.2 hhash⟩

end Lines

theorem AuditEntry.sameSigned_of_append {a b : AuditEntry} {d : Crates}
    (hex : ∀ x, '\n' ∉ (d.sha256Hex x).toList) (hfront : '\n' ∉ front.toList)
    (hline : NoLineFeed a.plainTexts) (ha : NoArrow a.nullable) (hb : NoArrow b.nullable)
    (hmeta : d.sha256Hex a.metadata = d.sha256Hex b.metadata → a.metadata = b.metadata)
    (h : front ++ rebuildCanonical d a = front' ++ rebuildCanonical d b) : a.SameSigned b := by
  obtain ⟨hid,hiso,hrest⟩ := canonicalLines_inj hex hfront (lineFeed_not_mem_toRfc3339Millis _)
    hline ha hb hmeta h
  exact ⟨hid,isoMillis_injective (signedYear_injective 4) hiso,hrest⟩

def AuditRow.NoBar (row : AuditRow) : Prop :=
  '|' ∉ row.action.toList ∧ '|' ∉ row.targetType.toList ∧ '|' ∉ row.targetId.toList

instance (row : AuditRow) : Decidable row.NoBar := by
  unfold AuditRow.NoBar
  infer_instance

theorem toList_chainText (action targetType targetId metadata : String) :
    (chainText action targetType targetId metadata).toList =
      action.toList ++ '|' :: (targetType.toList ++ '|' ::
        (targetId.toList ++ '|' :: metadata.toList)) := by
  simp [chainText]

theorem chainText_inj {a b : AuditRow} (ha : a.NoBar) (hb : b.NoBar)
    (h : chainText a.action a.targetType a.targetId a.metadata =
      chainText b.action b.targetType b.targetId b.metadata) :
    a.action = b.action ∧ a.targetType = b.targetType ∧ a.targetId = b.targetId ∧
      a.metadata = b.metadata := by
  have hchars := congrArg String.toList h
  rw [toList_chainText,toList_chainText] at hchars
  obtain ⟨haction,hchars⟩ := append_sep_inj ha.1 hb.1 hchars
  obtain ⟨htype,hchars⟩ := append_sep_inj ha.2.1 hb.2.1 hchars
  obtain ⟨htarget,hmeta⟩ := append_sep_inj ha.2.2 hb.2.2 hchars
  exact ⟨String.toList_inj.mp haction,String.toList_inj.mp htype,String.toList_inj.mp htarget,
    String.toList_inj.mp hmeta⟩

theorem AuditRow.sameChained_of_chainInput {a b : AuditRow} (ha : a.NoBar) (hb : b.NoBar)
    (hprev : a.prevHash.map String.length = b.prevHash.map String.length)
    (h : chainInput a = chainInput b) : a.SameChained b := by
  have hchars := congrArg String.toList h
  unfold chainInput at hchars
  rw [String.toList_append,String.toList_append] at hchars
  cases hpa : a.prevHash with
  | none =>
    cases hpb : b.prevHash with
    | none =>
      simp only [hpa,hpb,Option.getD_none,String.toList_empty,nil_append] at hchars
      exact ⟨hpa.trans hpb.symm,chainText_inj ha hb (String.toList_inj.mp hchars)⟩
    | some y => simp [hpa,hpb] at hprev
  | some x =>
    cases hpb : b.prevHash with
    | none => simp [hpa,hpb] at hprev
    | some y =>
      simp only [hpa,hpb,Option.map_some,Option.some.injEq] at hprev
      simp only [hpa,hpb,Option.getD_some] at hchars
      obtain ⟨hxy,htext⟩ := append_inj hchars hprev
      refine ⟨?_,chainText_inj ha hb (String.toList_inj.mp htext)⟩
      rw [hpa,hpb,String.toList_inj.mp hxy]

/-! ### Writer and verifier -/

section Determined

variable {R : Type} (S : System R)

theorem lineFeed_not_mem_prevHash {entry : AuditEntry} (h : NoLineFeed entry.plainTexts) :
    '\n' ∉ (entry.prevHash.getD "").toList := by
  cases hp : entry.prevHash with
  | none => simp
  | some prev => exact h prev (by simp [AuditEntry.plainTexts,plainTexts,hp])

/-- A payload determines its row, and so does the text the verifier hashes; the text the writer
hashes determines its five fields. -/
theorem canonical_texts_determine_rows (hex : ∀ x, '\n' ∉ (S.sha256Hex x).toList) :
    (∀ a b : AuditRow, NoLineFeed a.plainTexts → NoArrow a.nullable → NoArrow b.nullable →
      (S.sha256Hex a.metadata = S.sha256Hex b.metadata → a.metadata = b.metadata) →
      buildCanonicalPayload S.toPlatform a = buildCanonicalPayload S.toPlatform b →
      a.SameSigned b) ∧
    (∀ a b : AuditRow, a.NoBar → b.NoBar →
      a.prevHash.map String.length = b.prevHash.map String.length →
      chainInput a = chainInput b → a.SameChained b) ∧
    (∀ a b : AuditEntry, NoLineFeed a.plainTexts → NoArrow a.nullable → NoArrow b.nullable →
      (S.sha256Hex a.metadata = S.sha256Hex b.metadata → a.metadata = b.metadata) →
      rebuildCanonical S.toCrates a = rebuildCanonical S.toCrates b ∨
        verifierInput S a = verifierInput S b →
      a.SameSigned b) := by
  refine ⟨?_,?_,?_⟩
  · intro a b hline ha hb hmeta h
    have hempty : '\n' ∉ "".toList := by simp
    obtain ⟨hid,hiso,hrest⟩ := canonicalLines_inj hex hempty (lineFeed_not_mem_toISOString _)
      hline ha hb hmeta (congrArg ("" ++ ·) h)
    exact ⟨hid,isoMillis_injective (signedYear_injective 6) hiso,hrest⟩
  · intro a b ha hb hprev h
    exact AuditRow.sameChained_of_chainInput ha hb hprev h
  · intro a b hline ha hb hmeta h
    rcases h with h | h
    · have hempty : '\n' ∉ "".toList := by simp
      exact AuditEntry.sameSigned_of_append hex hempty hline ha hb hmeta (congrArg ("" ++ ·) h)
    · exact AuditEntry.sameSigned_of_append hex (lineFeed_not_mem_prevHash hline) hline ha hb
        hmeta h

end Determined

namespace Example

def encodedRow : AuditRow where
  id := 7
  userId := none
  action := "app.create"
  targetType := "app"
  targetId := "app_1"
  metadata := "\x7b\x7d"
  createdAt := 1767225600000
  prevHash := some chainDigest
  hash := some metadataDigest
  signature := none
  keyId := none
  orgId := none

def encodedEntry : AuditEntry where
  id := 7
  userId := none
  action := "app.create"
  targetType := "app"
  targetId := "app_1"
  metadata := "\x7b\x7d"
  createdAt := 1767225600000000000
  prevHash := some chainDigest
  hash := some metadataDigest
  signature := none

def emptyMetadata : System Unit :=
  { readable with sha256Hex := fun _ => metadataDigest }

theorem plain_encoded : NoLineFeed encodedRow.plainTexts ∧ NoArrow encodedRow.nullable ∧
    encodedRow.NoBar := by
  decide +kernel

end Example

open Example

/-- A row and its signed version, and an instant that differs by a microsecond. -/
theorem canonical_texts_determine_rows_example :
    encodedRow.SameSigned { encodedRow with signature := some "s" } ∧
    encodedRow.SameChained { encodedRow with id := 8 } ∧
    encodedEntry.SameSigned { encodedEntry with createdAt := 1767225600000001000 } := by
  have hex : ∀ x, '\n' ∉ (emptyMetadata.sha256Hex x).toList := by
    intro x
    show '\n' ∉ metadataDigest.toList
    decide +kernel
  obtain ⟨hpayload,hchain,hrebuilt⟩ := canonical_texts_determine_rows emptyMetadata hex
  obtain ⟨hline,harrow,hbar⟩ := plain_encoded
  refine ⟨?_,?_,?_⟩
  · exact hpayload _ _ hline harrow harrow (fun _ => rfl) rfl
  · exact hchain _ _ hbar hbar rfl rfl
  · exact hrebuilt _ _ hline harrow harrow (fun _ => rfl) (.inl (by decide +kernel))

/-- A null user against one named by the arrow, and a line feed moved to the next field, give one
payload; a moved bar, and another user and time, give one chain text. -/
theorem canonical_texts_collide :
    ¬ (∀ a b : AuditRow, buildCanonicalPayload emptyMetadata.toPlatform a =
        buildCanonicalPayload emptyMetadata.toPlatform b → a.SameSigned b) ∧
    ¬ (∀ a b : AuditEntry, rebuildCanonical emptyMetadata.toCrates a =
        rebuildCanonical emptyMetadata.toCrates b → a.SameSigned b) ∧
    ¬ (∀ a b : AuditRow, chainInput a = chainInput b → a.SameSigned b) ∧
    ¬ (∀ a b : AuditRow, chainInput a = chainInput b → a.SameChained b) := by
  refine ⟨?_,?_,?_,?_⟩
  · intro h
    have hsame := h encodedRow { encodedRow with userId := some "->" } rfl
    exact absurd hsame.2.2.1 (by decide)
  · intro h
    have hsame := h { encodedEntry with action := "a\nb", targetType := "c" }
      { encodedEntry with action := "a", targetType := "b\nc" } (by decide +kernel)
    exact absurd hsame.2.2.2.1 (by decide)
  · intro h
    have hsame := h encodedRow { encodedRow with userId := some "u", createdAt := 0 } rfl
    exact absurd hsame.2.2.1 (by decide)
  · intro h
    have hsame := h { encodedRow with action := "a|b", targetType := "c" }
      { encodedRow with action := "a", targetType := "b|c" } (by decide)
    exact absurd hsame.2.1 (by decide)

end Ploydok.Audit
