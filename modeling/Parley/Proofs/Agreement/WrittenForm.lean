/-
What the written form of an agreement view tells. A change is looked for by comparing the digests of
two written forms, so it is seen exactly if the two views are written differently. Equal contents
are written alike, but the converse asks something of the names: in the written form a line feed
ends a name, and a space ends the first copy of an entry, and neither is marked where it stands
inside a name.

Main statement: views whose names have no line feed, and whose first copies have no space, are
written alike exactly if their contents are equal; and of the views whose names are spelled with
some class of characters this is so exactly if the class has neither of the two characters.
-/
import Parley.Proofs.Agreement.Settlement

namespace Parley

namespace AgreementView

/-! ## What the octets of a text tell -/

theorem textOctets_eq_flatMap (s : String) :
    textOctets s = s.toList.flatMap String.utf8EncodeChar := by
  have h : s.toByteArray = s.toList.utf8Encode := String.utf8Encode_toList.symm
  unfold textOctets
  rw [String.toUTF8_eq_toByteArray, h]
  simp [List.utf8Encode]

theorem textOctets_inj {s t : String} (h : textOctets s = textOctets t) : s = t := by
  unfold textOctets at h
  rw [String.toUTF8_eq_toByteArray, String.toUTF8_eq_toByteArray] at h
  exact String.toByteArray_inj.1 (ByteArray.ext (Array.toList_inj.1 h))

/-- Of all characters, only an ASCII one is written with its octet. -/
theorem toNat_eq_of_mem_utf8EncodeChar {b : UInt8} {c : Char} (hb : b.toNat < 128)
    (h : b ∈ String.utf8EncodeChar c) : c.toNat = b.toNat := by
  -- every octet of a longer code is at least 128
  have hlong {n m base : Nat} (e : b = UInt8.ofNat (n % m + base)) (hm : 0 < m)
      (hbase : 128 ≤ base) (hsum : base + m ≤ 256) : False := by
    have := Nat.mod_lt n hm
    rw [e, UInt8.toNat_ofNat', Nat.mod_eq_of_lt (by omega)] at hb
    omega
  unfold String.utf8EncodeChar at h
  simp only at h
  split at h
  · rename_i hsmall
    rw [List.mem_singleton] at h
    rw [h, UInt8.toNat_ofNat', Nat.mod_eq_of_lt (by omega)]
    rfl
  · exfalso
    split at h
    · simp only [List.mem_cons, List.not_mem_nil, or_false] at h
      rcases h with h | h <;> exact hlong h (by decide) (by decide) (by decide)
    · split at h
      · simp only [List.mem_cons, List.not_mem_nil, or_false] at h
        rcases h with h | h | h <;> exact hlong h (by decide) (by decide) (by decide)
      · simp only [List.mem_cons, List.not_mem_nil, or_false] at h
        rcases h with h | h | h | h <;> exact hlong h (by decide) (by decide) (by decide)

/-- The octet of an ASCII character does not stand in a text without the character. -/
theorem not_mem_textOctets {b : UInt8} {c : Char} {s : String} (hb : b.toNat < 128)
    (hc : c.toNat = b.toNat) (h : c ∉ s.toList) : b ∉ textOctets s := by
  rw [textOctets_eq_flatMap, List.mem_flatMap]
  rintro ⟨d, hd, hbd⟩
  have hdc : d = c := by
    apply Char.toNat_inj.1
    rw [toNat_eq_of_mem_utf8EncodeChar hb hbd, hc]
  exact h (hdc ▸ hd)

/-- What stands before the first mark of its kind is told by the whole. -/
theorem append_mark_inj {α : Type} {mark : α} {a b x y : List α} (ha : mark ∉ a) (hb : mark ∉ b)
    (h : a ++ mark :: x = b ++ mark :: y) : a = b ∧ x = y := by
  induction a generalizing b with
  | nil =>
    cases b with
    | nil => exact ⟨rfl, List.tail_eq_of_cons_eq h⟩
    | cons d b =>
      obtain ⟨rfl, -⟩ := List.cons.inj h
      exact absurd List.mem_cons_self hb
  | cons c a ih =>
    cases b with
    | nil =>
      obtain ⟨rfl, -⟩ := List.cons.inj h
      exact absurd List.mem_cons_self ha
    | cons d b =>
      obtain ⟨hcd, hrest⟩ := List.cons.inj h
      rw [List.mem_cons, not_or] at ha hb
      obtain ⟨hab, hxy⟩ := ih ha.2 hb.2 hrest
      exact ⟨by rw [hcd, hab], hxy⟩

/-- A number that fits is told by its octets. -/
theorem octetsOf_append_inj {width n m : Nat} {x y : List UInt8} (hn : n < Nat.pow 256 width)
    (hm : m < Nat.pow 256 width) (h : octetsOf width n ++ x = octetsOf width m ++ y) :
    n = m ∧ x = y := by
  induction width generalizing n m with
  | zero =>
    have hn : n < 1 := hn
    have hm : m < 1 := hm
    exact ⟨by omega, h⟩
  | succ width ih =>
    unfold octetsOf at h
    rw [List.cons_append, List.cons_append] at h
    obtain ⟨hlow, hrest⟩ := List.cons.inj h
    have hn : n < Nat.pow 256 width * 256 := hn
    have hm : m < Nat.pow 256 width * 256 := hm
    obtain ⟨hhigh, rfl⟩ := ih (Nat.div_lt_of_lt_mul (by omega)) (Nat.div_lt_of_lt_mul (by omega))
      hrest
    have hmod : n % 256 = m % 256 := congrArg UInt8.toNat hlow
    exact ⟨by omega, rfl⟩

/-! ## What a view has to tell -/

/-- The members of the seven sets. -/
def members (s : AgreementView) : List Uri :=
  s.labelled.flatMap fun e => e.2.toList

/-- Views with the same seven sets, of which every member is resolved alike or in neither. -/
structure SameContent (s t : AgreementView) : Prop extends s.SameSets t where
  refs : ∀ u ∈ s.members, s.refs.get? u = t.refs.get? u

/-- Sizes are written in eight octets. -/
def sizeBound : Nat := Nat.pow 256 8

/-- The sizes of the sets are 64-bit numbers, as those of any sets in a memory are. -/
def Fits (s : AgreementView) : Prop :=
  ∀ e ∈ s.labelled, e.2.size < sizeBound

/-- A member whose written form is two lines, of which the second is cut at its first space. -/
structure LegibleMember (s : AgreementView) (u : Uri) : Prop where
  name : '\n' ∉ u.text.toList
  first : ∀ r, s.refs.get? u = some r → '\n' ∉ r.first.text.toList ∧ ' ' ∉ r.first.text.toList
  latest : ∀ r, s.refs.get? u = some r → '\n' ∉ r.latest.text.toList

/-- No name has a line feed, and no first copy has a space. -/
def Legible (s : AgreementView) : Prop :=
  ∀ u ∈ s.members, s.LegibleMember u

/-- Every name that is written is spelled with characters of a class. -/
def SpelledIn (allowed : Char → Prop) (s : AgreementView) : Prop :=
  ∀ u ∈ s.members, (∀ c ∈ u.text.toList, allowed c) ∧
    ∀ r, s.refs.get? u = some r →
      (∀ c ∈ r.first.text.toList, allowed c) ∧ ∀ c ∈ r.latest.text.toList, allowed c

theorem SpelledIn.legible {allowed : Char → Prop} {s : AgreementView} (h : s.SpelledIn allowed)
    (hline : ¬ allowed '\n') (hspace : ¬ allowed ' ') : s.Legible := by
  intro u hu
  obtain ⟨hname, hends⟩ := h u hu
  refine ⟨fun hm => hline (hname _ hm), fun r hr => ?_, fun r hr hm => ?_⟩
  · exact ⟨fun hm => hline ((hends r hr).1 _ hm), fun hm => hspace ((hends r hr).1 _ hm)⟩
  · exact hline ((hends r hr).2 _ hm)

/-! ## What the written form tells -/

/-- The second line of a member: its two ends, or nothing. -/
def endsOctets : Option ChainEnds → List UInt8
  | some r => textOctets r.first.text ++ 32 :: textOctets r.latest.text
  | none => []

theorem memberOctets_eq (s : AgreementView) (u : Uri) :
    s.memberOctets u = textOctets u.text ++ 10 :: (endsOctets (s.refs.get? u) ++ [10]) := by
  have hline : textOctets "\n" = [10] := by decide
  have hspace : textOctets " " = [32] := by decide
  unfold memberOctets
  rw [hline, hspace]
  cases s.refs.get? u <;> simp [endsOctets]

theorem not_mem_endsOctets {s : AgreementView} {u : Uri} (h : s.LegibleMember u) :
    10 ∉ endsOctets (s.refs.get? u) := by
  cases hr : s.refs.get? u with
  | none => exact List.not_mem_nil
  | some r =>
    have hfirst : 10 ∉ textOctets r.first.text :=
      not_mem_textOctets (by decide) (by decide) (h.first r hr).1
    have hlatest : 10 ∉ textOctets r.latest.text :=
      not_mem_textOctets (by decide) (by decide) (h.latest r hr)
    simp [endsOctets, hfirst, hlatest]

theorem endsOctets_inj {a b : Option ChainEnds}
    (ha : ∀ r, a = some r → ' ' ∉ r.first.text.toList)
    (hb : ∀ r, b = some r → ' ' ∉ r.first.text.toList) (h : endsOctets a = endsOctets b) :
    a = b := by
  cases a with
  | none =>
    cases b with
    | none => rfl
    | some r => simp [endsOctets] at h
  | some r =>
    cases b with
    | none => simp [endsOctets] at h
    | some r' =>
      obtain ⟨hfirst, hlatest⟩ := append_mark_inj
        (not_mem_textOctets (by decide) (by decide) (ha r rfl))
        (not_mem_textOctets (by decide) (by decide) (hb r' rfl)) h
      have hfirst := Uri.ext_text (textOctets_inj hfirst)
      have hlatest := Uri.ext_text (textOctets_inj hlatest)
      obtain ⟨first, latest⟩ := r
      obtain ⟨first', latest'⟩ := r'
      simp only at hfirst hlatest
      rw [hfirst, hlatest]

section

variable {s t : AgreementView}

/-- A legible member tells itself and its ends, whatever follows. -/
theorem memberOctets_append_inj {u v : Uri} {x y : List UInt8} (hu : s.LegibleMember u)
    (hv : t.LegibleMember v) (h : s.memberOctets u ++ x = t.memberOctets v ++ y) :
    u = v ∧ s.refs.get? u = t.refs.get? v ∧ x = y := by
  rw [memberOctets_eq, memberOctets_eq] at h
  simp only [List.append_assoc, List.cons_append, List.nil_append] at h
  obtain ⟨hname, h⟩ := append_mark_inj (not_mem_textOctets (by decide) (by decide) hu.name)
    (not_mem_textOctets (by decide) (by decide) hv.name) h
  obtain ⟨hends, rfl⟩ := append_mark_inj (not_mem_endsOctets hu) (not_mem_endsOctets hv) h
  refine ⟨Uri.ext_text (textOctets_inj hname), ?_, rfl⟩
  exact endsOctets_inj (fun r hr => (hu.first r hr).2) (fun r hr => (hv.first r hr).2) hends

theorem membersOctets_append_inj {us vs : List Uri} {x y : List UInt8}
    (hlength : us.length = vs.length) (hus : ∀ u ∈ us, s.LegibleMember u)
    (hvs : ∀ v ∈ vs, t.LegibleMember v)
    (h : us.flatMap s.memberOctets ++ x = vs.flatMap t.memberOctets ++ y) :
    us = vs ∧ (∀ u ∈ us, s.refs.get? u = t.refs.get? u) ∧ x = y := by
  induction us generalizing vs with
  | nil =>
    obtain rfl := List.length_eq_zero_iff.1 hlength.symm
    exact ⟨rfl, fun u hu => absurd hu List.not_mem_nil, h⟩
  | cons u us ih =>
    cases vs with
    | nil => cases hlength
    | cons v vs =>
      rw [List.forall_mem_cons] at hus hvs
      simp only [List.flatMap_cons, List.append_assoc] at h
      obtain ⟨rfl, hrefs, h⟩ := memberOctets_append_inj hus.1 hvs.1 h
      obtain ⟨rfl, hrest, rfl⟩ := ih (Nat.succ.inj hlength) hus.2 hvs.2 h
      exact ⟨rfl, List.forall_mem_cons.2 ⟨hrefs, hrest⟩, rfl⟩

theorem setOctets_append_inj {label : String} {a b : UriSet} {x y : List UInt8}
    (ha : a.size < sizeBound) (hb : b.size < sizeBound) (hs : ∀ u ∈ a.toList, s.LegibleMember u)
    (ht : ∀ u ∈ b.toList, t.LegibleMember u)
    (h : s.setOctets label a ++ x = t.setOctets label b ++ y) :
    a = b ∧ (∀ u ∈ a.toList, s.refs.get? u = t.refs.get? u) ∧ x = y := by
  unfold setOctets at h
  simp only [List.append_assoc] at h
  obtain ⟨hsize, h⟩ := octetsOf_append_inj ha hb (List.append_cancel_left h)
  obtain ⟨hmembers, hrefs, rfl⟩ := membersOctets_append_inj hsize hs ht h
  exact ⟨UriSet.ext_mem fun u => by rw [UriSet.mem_def, UriSet.mem_def, hmembers], hrefs, rfl⟩

/-- Sets that are written one after another under the same labels. -/
theorem labelledOctets_inj {as bs : List (String × UriSet)}
    (hlabels : as.map (·.1) = bs.map (·.1))
    (ha : ∀ e ∈ as, e.2.size < sizeBound ∧ ∀ u ∈ e.2.toList, s.LegibleMember u)
    (hb : ∀ e ∈ bs, e.2.size < sizeBound ∧ ∀ u ∈ e.2.toList, t.LegibleMember u)
    (h : (as.flatMap fun e => s.setOctets e.1 e.2) = bs.flatMap fun e => t.setOctets e.1 e.2) :
    as = bs ∧ ∀ e ∈ as, ∀ u ∈ e.2.toList, s.refs.get? u = t.refs.get? u := by
  induction as generalizing bs with
  | nil =>
    obtain rfl := List.map_eq_nil_iff.1 hlabels.symm
    exact ⟨rfl, fun e he => absurd he List.not_mem_nil⟩
  | cons e as ih =>
    cases bs with
    | nil => cases hlabels
    | cons e' bs =>
      obtain ⟨label, a⟩ := e
      obtain ⟨label', b⟩ := e'
      obtain ⟨hlabel, hrest⟩ := List.cons.inj hlabels
      simp only at hlabel
      subst hlabel
      rw [List.forall_mem_cons] at ha hb
      obtain ⟨rfl, hrefs, h⟩ := setOctets_append_inj ha.1.1 hb.1.1 ha.1.2 hb.1.2 h
      obtain ⟨rfl, hmore⟩ := ih hrest ha.2 hb.2 h
      exact ⟨rfl, List.forall_mem_cons.2 ⟨hrefs, hmore⟩⟩

theorem mem_members {u : Uri} : u ∈ s.members ↔ ∃ e ∈ s.labelled, u ∈ e.2.toList :=
  List.mem_flatMap

theorem sameSets_iff : s.SameSets t ↔ s.labelled = t.labelled := by
  constructor
  · rintro ⟨h1, h2, h3, h4, h5, h6, h7⟩
    simp only [labelled, h1, h2, h3, h4, h5, h6, h7]
  · intro hsets
    simp only [labelled, List.cons.injEq, Prod.mk.injEq, true_and, and_true] at hsets
    obtain ⟨h1, h2, h3, h4, h5, h6, h7⟩ := hsets
    exact ⟨h1, h2, h3, h4, h5, h6, h7⟩

/-- Views with equal contents are written alike. -/
theorem SameContent.octets_eq (h : s.SameContent t) : s.octets = t.octets := by
  unfold octets
  rw [← sameSets_iff.1 h.toSameSets]
  refine List.flatMap_congr fun e he => ?_
  have hmembers : e.2.toList.flatMap s.memberOctets = e.2.toList.flatMap t.memberOctets := by
    refine List.flatMap_congr fun u hu => ?_
    rw [memberOctets_eq, memberOctets_eq, h.refs u (mem_members.2 ⟨e, he, hu⟩)]
  simp only [setOctets, hmembers]

/-- Legible views that are written alike have equal contents. -/
theorem Legible.sameContent (hs : s.Legible) (ht : t.Legible) (hsf : s.Fits) (htf : t.Fits)
    (h : s.octets = t.octets) : s.SameContent t := by
  have hlabels : s.labelled.map (·.1) = t.labelled.map (·.1) := rfl
  obtain ⟨hsets, hrefs⟩ := labelledOctets_inj hlabels
    (fun e he => ⟨hsf e he, fun u hu => hs u (mem_members.2 ⟨e, he, hu⟩)⟩)
    (fun e he => ⟨htf e he, fun u hu => ht u (mem_members.2 ⟨e, he, hu⟩)⟩) h
  refine ⟨sameSets_iff.2 hsets, fun u hu => ?_⟩
  obtain ⟨e, he, hu⟩ := mem_members.1 hu
  exact hrefs e he u hu

end

/-! ## Names that hide where they end -/

/-- The view of one agreement and its two ends. -/
def single (u : Uri) (ends : ChainEnds) : AgreementView :=
  { empty with agreements := .ofList [u], refs := .ofList [(u, ends)] }

theorem single_fits (u : Uri) (ends : ChainEnds) : (single u ends).Fits := by
  have hnone : 0 < sizeBound := by decide
  have hone : 1 < sizeBound := by decide
  simp [hnone, hone, Fits, labelled, single, empty, UriSet.size, UriSet.ofList, UriSet.insertAll,
    UriSet.insert, UriSet.insertInto, UriSet.empty, EmptyCollection.emptyCollection]

theorem single_spelledIn {allowed : Char → Prop} {u : Uri} {ends : ChainEnds}
    (hu : ∀ c ∈ u.text.toList, allowed c) (hfirst : ∀ c ∈ ends.first.text.toList, allowed c)
    (hlatest : ∀ c ∈ ends.latest.text.toList, allowed c) :
    (single u ends).SpelledIn allowed := by
  intro v hv
  have hvu : v = u := List.mem_singleton.1 hv
  subst hvu
  refine ⟨hu, fun r hr => ?_⟩
  have hr : (if v = v then some ends else none) = some r := hr
  rw [if_pos rfl] at hr
  cases hr
  exact ⟨hfirst, hlatest⟩

/-- The end of a name may be taken for the start of its first copy. -/
theorem octets_of_lineFeed :
    (single ⟨""⟩ ⟨⟨"\n"⟩, ⟨""⟩⟩).octets = (single ⟨"\n"⟩ ⟨⟨""⟩, ⟨""⟩⟩).octets := rfl

/-- The end of a first copy may be taken for the start of the latest. -/
theorem octets_of_space :
    (single ⟨""⟩ ⟨⟨" "⟩, ⟨""⟩⟩).octets = (single ⟨""⟩ ⟨⟨""⟩, ⟨" "⟩⟩).octets := rfl

/-! ## When a change is seen -/

/-- Of the views of a class, those with equal contents are written alike, and no others. -/
def Tells (P : AgreementView → Prop) : Prop :=
  ∀ s t : AgreementView, s.Fits → t.Fits → P s → P t → (s.octets = t.octets ↔ s.SameContent t)

theorem tells_legible : Tells Legible :=
  fun _ _ hsf htf hs ht => ⟨hs.sameContent ht hsf htf, SameContent.octets_eq⟩

theorem tells_spelledIn_iff (allowed : Char → Prop) :
    Tells (SpelledIn allowed) ↔ ¬ allowed '\n' ∧ ¬ allowed ' ' := by
  have hempty : ∀ c ∈ "".toList, allowed c := fun c hc => absurd hc List.not_mem_nil
  constructor
  · intro h
    constructor
    · intro hline
      have hspelled : ∀ c ∈ "\n".toList, allowed c := by simpa using hline
      have hsame := (h _ _ (single_fits _ _) (single_fits _ _)
        (single_spelledIn hempty hspelled hempty) (single_spelledIn hspelled hempty hempty)).1
        octets_of_lineFeed
      exact absurd hsame.agreements (by decide)
    · intro hspace
      have hspelled : ∀ c ∈ " ".toList, allowed c := by simpa using hspace
      have hsame := (h _ _ (single_fits _ _) (single_fits _ _)
        (single_spelledIn hempty hspelled hempty) (single_spelledIn hempty hempty hspelled)).1
        octets_of_space
      exact absurd (hsame.refs ⟨""⟩ (by decide)) (by decide)
  · rintro ⟨hline, hspace⟩ s t hsf htf hs ht
    exact tells_legible s t hsf htf (hs.legible hline hspace) (ht.legible hline hspace)

/-- A reconciliation counts as a change unless the view before has the same digest. -/
theorem changed_of_reconciled {connection ownAtom : Uri} {store : Store} {maxDepth : Nat}
    {previous : Option AgreementView} {source : List Question → Inquiry.Source}
    {past : List Question} {rec : Reconciliation}
    (hrec : ((reconcile connection ownAtom store maxDepth previous).runAfter source past).1 =
      .ok rec) :
    rec.changed = false ↔ ∃ p, previous = some p ∧ p.digest = rec.view.digest := by
  have hchanged : rec.changed = previous.all fun p => p.digest ≠ rec.view.digest := by
    cases hsets : source past (.sets connection) with
    | error e => cases (reconcile_of_error hsets).symm.trans hrec
    | ok sets =>
      rw [runAfter_reconcile hsets, Inquiry.runAfter_bind] at hrec
      cases hrec
      rfl
  rw [hchanged]
  cases previous <;> simp

/-- Equal contents are written alike. The converse holds of legible views, and of the views that are
spelled with some class of characters exactly if it has neither the line feed nor the space. So a
reconciliation of legible views, whose hash does not collide, reports no change exactly if there is
a view before and its contents are equal. -/
theorem contents_told_iff (s t : AgreementView) (allowed : Char → Prop)
    (connection ownAtom : Uri) (store : Store) (maxDepth : Nat) (previous : Option AgreementView)
    (source : List Question → Inquiry.Source) (past : List Question) :
    (s.SameContent t → s.octets = t.octets) ∧
    (s.Fits → t.Fits → s.Legible → t.Legible → (s.octets = t.octets ↔ s.SameContent t)) ∧
    (Tells (SpelledIn allowed) ↔ ¬ allowed '\n' ∧ ¬ allowed ' ') ∧
    ∀ rec,
      ((reconcile connection ownAtom store maxDepth previous).runAfter source past).1 = .ok rec →
      rec.view.Fits → rec.view.Legible →
      (∀ p, previous = some p → p.Fits ∧ p.Legible ∧
        (p.digest = rec.view.digest → p.octets = rec.view.octets)) →
      (rec.changed = false ↔ ∃ p, previous = some p ∧ p.SameContent rec.view) := by
  refine ⟨SameContent.octets_eq, tells_legible s t, tells_spelledIn_iff allowed, ?_⟩
  intro rec hrec hfits hlegible hprevious
  rw [changed_of_reconciled hrec]
  constructor
  · rintro ⟨p, hp, hdigest⟩
    obtain ⟨hpfits, hplegible, hhash⟩ := hprevious p hp
    exact ⟨p, hp, hplegible.sameContent hlegible hpfits hfits (hhash hdigest)⟩
  · rintro ⟨p, hp, hsame⟩
    exact ⟨p, hp, congrArg Digest.Blake3.hexDigest hsame.octets_eq⟩

/-- A source that has the agreements given and no event. -/
def agreementsOnly (us : List Uri) : Inquiry.Source
  | .sets _ => .ok { ServerSets.empty with agreementUris := .ofList us }
  | .event _ u => .error (.fetch u (some 404) "not found")

/-- The view of agreements none of which is resolved. -/
def unresolved (us : List Uri) : AgreementView :=
  { empty with agreements := .ofList us }

def twoAgreements : AgreementView :=
  unresolved [⟨"a"⟩, ⟨"b"⟩]

theorem contents_told_iff_twoAgreements :
    twoAgreements.octets ≠ (single ⟨"a"⟩ ⟨⟨"a"⟩, ⟨"b"⟩⟩).octets ∧
      ∃ rec : Reconciliation,
        ((reconcile ⟨"c"⟩ ⟨"own"⟩ .empty 8 (some twoAgreements)).runAfter
          (fun _ => agreementsOnly [⟨"b"⟩, ⟨"a"⟩]) []).1 = .ok rec ∧ rec.changed = false := by
  obtain ⟨-, htells, -, hchanged⟩ := contents_told_iff twoAgreements (single ⟨"a"⟩ ⟨⟨"a"⟩, ⟨"b"⟩⟩)
    (fun c => c ≠ '\n' ∧ c ≠ ' ') ⟨"c"⟩ ⟨"own"⟩ .empty 8 (some twoAgreements)
    (fun _ => agreementsOnly [⟨"b"⟩, ⟨"a"⟩]) []
  have hfits : twoAgreements.Fits := by
    unfold Fits
    decide
  have hlegible : twoAgreements.Legible := by
    intro u hu
    have hname : '\n' ∉ u.text.toList := by
      revert u
      decide
    exact ⟨hname, fun r hr => (nomatch hr), fun r hr => (nomatch hr)⟩
  constructor
  · intro h
    have hspelled : (single ⟨"a"⟩ ⟨⟨"a"⟩, ⟨"b"⟩⟩).SpelledIn fun c => c ≠ '\n' ∧ c ≠ ' ' :=
      single_spelledIn (by simp) (by simp) (by simp)
    have hsame := (htells hfits (single_fits _ _) hlegible
      (hspelled.legible (by decide) (by decide))).1 h
    exact absurd hsame.agreements (by decide)
  · obtain ⟨rec, hrec, hview⟩ : ∃ rec : Reconciliation,
        ((reconcile ⟨"c"⟩ ⟨"own"⟩ .empty 8 (some twoAgreements)).runAfter
          (fun _ => agreementsOnly [⟨"b"⟩, ⟨"a"⟩]) []).1 = .ok rec ∧ rec.view = twoAgreements :=
      ⟨_, rfl, by decide⟩
    refine ⟨rec, hrec, (hchanged rec hrec (hview ▸ hfits) (hview ▸ hlegible) ?_).2 ⟨_, rfl, ?_⟩⟩
    · rintro p hp
      cases hp
      exact ⟨hfits, hlegible, fun _ => by rw [hview]⟩
    · rw [hview]
      exact ⟨sameSets_iff.2 rfl, fun _ _ => rfl⟩

/-- Two agreements, the first of which has an empty line in its name. -/
def firstOnThreeLines : List Uri := [⟨"a\n\nb"⟩, ⟨"c"⟩]

/-- Two other agreements, of the same lines. -/
def secondOnThreeLines : List Uri := [⟨"a"⟩, ⟨"b\n\nc"⟩]

/-- It does not show where one name ends and the next begins. -/
theorem lineFeed_hides_change :
    ∃ before after : Reconciliation,
      (reconcile ⟨"c"⟩ ⟨"own"⟩ .empty 8 none).run (agreementsOnly firstOnThreeLines) =
        .ok before ∧
      (reconcile ⟨"c"⟩ ⟨"own"⟩ .empty 8 (some before.view)).run
        (agreementsOnly secondOnThreeLines) = .ok after ∧
      after.changed = false ∧ after.view.agreements ≠ before.view.agreements := by
  obtain ⟨before, hbefore, hfirst⟩ : ∃ rec : Reconciliation,
      (reconcile ⟨"c"⟩ ⟨"own"⟩ .empty 8 none).run (agreementsOnly firstOnThreeLines) = .ok rec ∧
        rec.view = unresolved firstOnThreeLines := ⟨_, rfl, by decide⟩
  obtain ⟨after, hafter, hsecond⟩ : ∃ rec : Reconciliation,
      (reconcile ⟨"c"⟩ ⟨"own"⟩ .empty 8 (some before.view)).run
        (agreementsOnly secondOnThreeLines) = .ok rec ∧
        rec.view = unresolved secondOnThreeLines := by
    rw [hfirst]
    exact ⟨_, rfl, by decide⟩
  refine ⟨before, after, hbefore, hafter, ?_, ?_⟩
  · have hrun := congrArg Prod.fst (Inquiry.runAfter_constant (agreementsOnly secondOnThreeLines)
      (reconcile ⟨"c"⟩ ⟨"own"⟩ .empty 8 (some before.view)) [])
    refine (changed_of_reconciled (hrun.trans hafter)).2 ⟨_, rfl, ?_⟩
    have hoctets : (unresolved firstOnThreeLines).octets =
      (unresolved secondOnThreeLines).octets := rfl
    rw [hfirst, hsecond]
    exact congrArg Digest.Blake3.hexDigest hoctets
  · rw [hfirst, hsecond]
    decide

end AgreementView

end Parley
