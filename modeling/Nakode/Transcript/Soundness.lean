import Nakode.Lib.HashChain
import Nakode.Lib.Json
import Nakode.Transcript.Projection

/-!
# Equal prefix proofs are of equal prefixes

A proof is a digest of everything that a client can be shown of the entries before it: the hash of an
entry determines the entry (`entry_eq_of_content`), and the chain adds the number of its images and
its code-mode parent, which make up the rest of its view (`transcriptEntryView_congr`). Where no two
of the texts that were hashed have one digest, equal proofs are therefore of prefixes with the same
entries and the same views (`prefix_proofs_sound`).
-/

namespace Nakode

/-! ## Bytes -/

theorem bytes_injective : Function.Injective bytes := by
  intro s s' h
  exact String.toByteArray_inj.1 (ByteArray.ext (Array.toList_inj.1 h))

theorem length_bytes (s : String) : (bytes s).length = Text.len s := rfl

theorem hexDigit_byte_inj {b b' : UInt8}
    (hhigh : Text.hexDigit (b.toNat / 16) = Text.hexDigit (b'.toNat / 16))
    (hlow : Text.hexDigit (b.toNat % 16) = Text.hexDigit (b'.toNat % 16)) : b = b' := by
  have hb := b.toNat_lt
  have hb' := b'.toNat_lt
  have hhigh' := congrArg Text.hexValue hhigh
  have hlow' := congrArg Text.hexValue hlow
  rw [Text.hexValue_hexDigit _ (by omega), Text.hexValue_hexDigit _ (by omega)] at hhigh' hlow'
  exact UInt8.toNat_inj.1 (by omega)

theorem hexDigest_injective : Function.Injective hexDigest := by
  have hlist : ∀ l l' : List UInt8,
      (l.flatMap fun b => [Text.hexDigit (b.toNat / 16), Text.hexDigit (b.toNat % 16)])
        = l'.flatMap (fun b => [Text.hexDigit (b.toNat / 16), Text.hexDigit (b.toNat % 16)]) →
      l = l' := by
    intro l
    induction l with
    | nil =>
      intro l' h
      cases l' with
      | nil => rfl
      | cons b' l' => cases h
    | cons b l ih =>
      intro l' h
      cases l' with
      | nil => cases h
      | cons b' l' =>
        obtain ⟨hhigh, h⟩ := List.cons.inj h
        obtain ⟨hlow, h⟩ := List.cons.inj h
        rw [hexDigit_byte_inj hhigh hlow, ih l' h]
  intro d d' h
  exact Vector.toList_inj.1 (hlist _ _ (String.ofList_injective h))

theorem len_hexDigest (digest : Vector UInt8 32) : Text.len (hexDigest digest) = 64 := by
  have hdigit : ∀ n < 16, (Text.hexDigit n).utf8Size = 1 := by decide
  have hlist : ∀ l : List UInt8, String.utf8Len
      (l.flatMap fun b => [Text.hexDigit (b.toNat / 16), Text.hexDigit (b.toNat % 16)])
      = 2 * l.length := by
    intro l
    induction l with
    | nil => rfl
    | cons b l ih =>
      have hb := b.toNat_lt
      rw [List.flatMap_cons, String.utf8Len_append, ih, String.utf8Len_cons, String.utf8Len_cons,
        hdigit _ (by omega), hdigit _ (by omega), List.length_cons]
      simp only [String.utf8Len_nil]
      omega
  rw [hexDigest, Text.len_ofList, hlist, Vector.length_toList]

theorem length_leBytes (n : Nat) : (leBytes n).length = 8 := rfl

/-- A number is made up of its bytes. -/
theorem eq_of_bytes_eq (k : Nat) {n n' : Nat} (hn : n < 256 ^ k) (hn' : n' < 256 ^ k)
    (h : ∀ i < k, n / 256 ^ i % 256 = n' / 256 ^ i % 256) : n = n' := by
  induction k generalizing n n' with
  | zero =>
    rw [pow_zero] at hn hn'
    omega
  | succ k ih =>
    have hlow := h 0 (Nat.succ_pos k)
    rw [pow_zero, Nat.div_one, Nat.div_one] at hlow
    have hhigh : n / 256 = n' / 256 := by
      refine ih ?_ ?_ ?_
      · exact Nat.div_lt_of_lt_mul (by rwa [← pow_succ'])
      · exact Nat.div_lt_of_lt_mul (by rwa [← pow_succ'])
      · intro i hi
        have hbyte := h (i + 1) (Nat.succ_lt_succ hi)
        rwa [pow_succ', ← Nat.div_div_eq_div_mul, ← Nat.div_div_eq_div_mul] at hbyte
    omega

theorem leBytes_inj {n n' : Nat} (hn : n < 2 ^ 64) (hn' : n' < 2 ^ 64) (h : leBytes n = leBytes n') :
    n = n' := by
  refine eq_of_bytes_eq 8 hn hn' ?_
  intro i hi
  have hbyte := congrArg (fun l : List UInt8 => l[i]?) h
  simp only [leBytes, List.getElem?_map, List.getElem?_range hi, Option.map_some,
    Option.some.injEq] at hbyte
  simpa using congrArg UInt8.toNat hbyte

/-! ## Entries -/

theorem ofOption_injective : Function.Injective Text.Json.ofOption := by
  intro o o' h
  cases o with
  | none =>
    cases o' with
    | none => rfl
    | some s' => cases h
  | some s =>
    cases o' with
    | none => cases h
    | some s' => rw [Text.Json.str.inj h]

theorem EntryKind.name_injective : Function.Injective EntryKind.name := by
  intro kind kind' h
  cases kind <;> cases kind' <;> first | rfl | exact absurd h (by decide)

theorem EntryStatus.name_injective : Function.Injective EntryStatus.name := by
  intro status status' h
  cases status <;> cases status' <;> first | rfl | exact absurd h (by decide)

/-- The JSON of an entry has all of it. -/
theorem TranscriptEntry.json_injective : Function.Injective TranscriptEntry.json := by
  intro entry entry' h
  simp only [json, Text.Json.obj.injEq, List.cons.injEq, Prod.mk.injEq, true_and, and_true,
    Text.Json.str.injEq, ofOption_injective.eq_iff, EntryKind.name_injective.eq_iff,
    EntryStatus.name_injective.eq_iff] at h
  obtain ⟨h1, h2, h3, h4, h5, h6, h7, hcreated, h9, h10, h11, h12, hfast, h14, h15⟩ := h
  have hcreated' : entry.createdAtMs = entry'.createdAtMs := by
    revert hcreated
    cases entry.createdAtMs <;> cases entry'.createdAtMs <;> intro hcreated
    · rfl
    · cases hcreated
    · cases hcreated
    · rw [Int.ofNat_inj.1 (Text.Json.int.inj hcreated)]
  have hfast' : entry.fastMode = entry'.fastMode := by
    revert hfast
    cases entry.fastMode <;> cases entry'.fastMode <;> intro hfast
    · rfl
    · cases hfast
    · cases hfast
    · rw [Text.Json.bool.inj hfast]
  cases entry
  cases entry'
  simp_all

namespace Digests

/-! ## The chain -/

/-- What a visible entry adds to the chain. -/
structure ChainItem where
  content : Vector UInt8 32
  images : Nat
  parent : Option String

def parentBytes : Option String → List UInt8
  | some parent => 1 :: leBytes (Text.len parent) ++ bytes parent
  | none => [0]

/-- What is hashed for a visible entry behind a digest. -/
def chainInput (current : Vector UInt8 32) (item : ChainItem) : List UInt8 :=
  current.toList ++ item.content.toList ++ leBytes item.images ++ parentBytes item.parent

variable (D : Digests) (t : DomainTranscript)

def startInput : List UInt8 :=
  bytes "nakode.transcript.prefix.v3" ++ [if t.historyTruncated then 1 else 0]

/-- What is hashed of an entry alone. -/
def contentInput (entry : TranscriptEntry) : List UInt8 :=
  bytes (TranscriptEntry.json { entry with body := "" }).render
    ++ bytes (D.transcriptBodyDigest entry.body)

def chainItem (entry : TranscriptEntry) : ChainItem :=
  ⟨(D.entryDigest entry).content, (t.imageArtifacts entry).length, D.parentToolEntryId t entry⟩

/-- Everything that is hashed for the proofs of a transcript. -/
def hashed : List (List UInt8) :=
  startInput t :: (t.visible.flatMap fun entry => [bytes entry.body, D.contentInput entry])
    ++ HashChain.inputs D.sha256 chainInput (D.prefixStart t) (t.visible.map (D.chainItem t))

variable {D t}

/-- The chain takes the code-mode parent that clients are shown. -/
theorem parentToolEntryId_eq (entry : TranscriptEntry) :
    D.parentToolEntryId t entry
      = (D.entryDigest entry).parentItemId.filter (D.codemodeTools t).contains := by
  have hparent : (D.entryDigest entry).parentItemId = D.toolAuditIdentity entry "parentItemId" := rfl
  rw [hparent, parentToolEntryId]
  cases D.toolAuditIdentity entry "parentItemId" with
  | none => rfl
  | some parent =>
    rw [Option.bind_eq_bind, Option.bind_some]
    cases hfound : t.entries.find? fun candidate =>
        candidate.kind == .tool && candidate.id == parent
          && D.toolAuditIdentity candidate "name" == some "codemode" with
    | none =>
      symm
      rw [Option.bind_eq_bind, Option.bind_none, Option.filter_eq_none_iff]
      intro parent' hparent' hmem
      obtain rfl := Option.some.inj hparent'
      obtain ⟨candidate, hcandidate, hid⟩ := List.mem_map.1 (List.contains_iff_mem.1 hmem)
      obtain ⟨hin, htool⟩ := List.mem_filter.1 hcandidate
      have hnone := List.find?_eq_none.1 hfound candidate hin
      simp only [entryDigest, Bool.and_eq_true] at htool
      simp [hid, htool] at hnone
    | some candidate =>
      have hspec := List.find?_some hfound
      simp only [Bool.and_eq_true, beq_iff_eq] at hspec
      have hmem : parent ∈ D.codemodeTools t := by
        refine List.mem_map.2 ⟨candidate, List.mem_filter.2 ⟨List.mem_of_find?_eq_some hfound, ?_⟩,
          hspec.1.2⟩
        simp [entryDigest, hspec.1.1, hspec.2]
      rw [Option.filter_some, if_pos (List.contains_iff_mem.2 hmem), Option.bind_eq_bind,
        Option.bind_some, hspec.1.2]
      rfl

theorem chainStep_eq (current : Vector UInt8 32) (entry : TranscriptEntry) :
    D.chainStep t current entry = D.sha256 (chainInput current (D.chainItem t entry)) := by
  rw [chainItem, parentToolEntryId_eq]
  rfl

theorem length_startInput : (startInput t).length = 28 := by
  rw [startInput, List.length_append, length_bytes]
  rfl

theorem length_chainInput (current : Vector UInt8 32) (item : ChainItem) :
    72 < (chainInput current item).length := by
  have hparent : 0 < (parentBytes item.parent).length := by
    cases item.parent <;> exact Nat.succ_pos _
  rw [chainInput, List.length_append, List.length_append, List.length_append, Vector.length_toList,
    Vector.length_toList, length_leBytes]
  omega

theorem parentBytes_injective : Function.Injective parentBytes := by
  intro parent parent' h
  cases parent with
  | none =>
    cases parent' with
    | none => rfl
    | some parent' => exact absurd (List.cons.inj h).1 (by decide)
  | some parent =>
    cases parent' with
    | none => exact absurd (List.cons.inj h).1 (by decide)
    | some parent' =>
      obtain ⟨-, hname⟩ := List.append_inj (List.cons.inj h).2 (by simp only [length_leBytes])
      rw [bytes_injective hname]

theorem chainInput_inj {current current' : Vector UInt8 32} {item item' : ChainItem}
    (himages : item.images < 2 ^ 64) (himages' : item'.images < 2 ^ 64)
    (h : chainInput current item = chainInput current' item') : current = current' ∧ item = item' := by
  obtain ⟨content, images, parent⟩ := item
  obtain ⟨content', images', parent'⟩ := item'
  simp only [chainInput, List.append_assoc] at h
  obtain ⟨hcurrent, hrest⟩ := List.append_inj h (by simp)
  obtain ⟨hcontent, hrest⟩ := List.append_inj hrest (by simp)
  obtain ⟨hcount, hparent⟩ := List.append_inj hrest (by simp only [length_leBytes])
  obtain rfl := Vector.toList_inj.1 hcurrent
  obtain rfl := Vector.toList_inj.1 hcontent
  obtain rfl := leBytes_inj himages himages' hcount
  obtain rfl := parentBytes_injective hparent
  exact ⟨rfl, rfl⟩

/-- Equal digests of two entries are of equal entries. -/
theorem entry_eq_of_content {used : Set (List UInt8)} (hhash : Set.InjOn D.sha256 used)
    {entry entry' : TranscriptEntry} (hbody : bytes entry.body ∈ used)
    (hbody' : bytes entry'.body ∈ used) (hcontent : D.contentInput entry ∈ used)
    (hcontent' : D.contentInput entry' ∈ used)
    (h : (D.entryDigest entry).content = (D.entryDigest entry').content) : entry = entry' := by
  have hinput : D.contentInput entry = D.contentInput entry' := hhash hcontent hcontent' h
  obtain ⟨hmetadata, hdigest⟩ := List.append_inj' hinput
    (by rw [length_bytes, length_bytes, transcriptBodyDigest, transcriptBodyDigest, len_hexDigest,
      len_hexDigest])
  have hbodies : entry.body = entry'.body :=
    bytes_injective (hhash hbody hbody' (hexDigest_injective (bytes_injective hdigest)))
  have hrest := TranscriptEntry.json_injective
    (Text.render_injective (bytes_injective hmetadata))
  cases entry
  cases entry'
  simp_all

/-- A view depends on the images of its entry and on its code-mode parent. -/
theorem transcriptEntryView_congr {t' : DomainTranscript} {entry : TranscriptEntry}
    (h : D.chainItem t entry = D.chainItem t' entry) (body : String) (audit coordination : Bool) :
    D.transcriptEntryView t entry body audit coordination
      = D.transcriptEntryView t' entry body audit coordination := by
  have himages : (t.imageArtifacts entry).length = (t'.imageArtifacts entry).length :=
    congrArg ChainItem.images h
  have hparent : D.parentToolEntryId t entry = D.parentToolEntryId t' entry :=
    congrArg ChainItem.parent h
  rw [transcriptEntryView, transcriptEntryView, himages, hparent]

/-! ## Proofs -/

/-- A proof after visible entries is the digest of the chain over them. -/
theorem getElem?_prefixesFrom (current : Vector UInt8 32) (entries : List TranscriptEntry) {n : Nat}
    {p : String} (h : (D.prefixesFrom t current entries)[n]? = some p) :
    n < (entries.filter visibleTranscriptEntry).length ∧
      p = hexDigest (HashChain.run D.sha256 chainInput current
        (((entries.filter visibleTranscriptEntry).take (n + 1)).map (D.chainItem t))) := by
  induction entries generalizing current n with
  | nil => cases h
  | cons entry rest ih =>
    rw [prefixesFrom] at h
    split at h
    · next hvisible =>
      rw [List.filter_cons_of_pos hvisible, List.take_succ_cons, List.map_cons, HashChain.run_cons,
        ← chainStep_eq]
      cases n with
      | zero =>
        obtain rfl := Option.some.inj h
        exact ⟨Nat.succ_pos _, rfl⟩
      | succ n =>
        obtain ⟨hlt, hp⟩ := ih _ h
        exact ⟨Nat.succ_lt_succ hlt, hp⟩
    · next hhidden =>
      rw [List.filter_cons_of_neg hhidden]
      exact ih current h

theorem getElem?_transcriptPrefixes {n : Nat} {p : String}
    (h : (D.transcriptPrefixes t)[n]? = some p) :
    n ≤ t.visible.length ∧ p = hexDigest (HashChain.run D.sha256 chainInput (D.prefixStart t)
      ((t.visible.take n).map (D.chainItem t))) := by
  cases n with
  | zero =>
    obtain rfl := Option.some.inj h
    exact ⟨Nat.zero_le _, rfl⟩
  | succ n => exact getElem?_prefixesFrom _ _ h

/-- The images of each entry are counted in 64 bits. Otherwise no proofs are made. -/
def ImagesCounted (t : DomainTranscript) : Prop :=
  ∀ entry ∈ t.visible, (t.imageArtifacts entry).length < 2 ^ 64

/-- What is hashed for a transcript is hashed for two. -/
def hashedOfBoth (D : Digests) (t t' : DomainTranscript) : Set (List UInt8) :=
  {x | x ∈ D.hashed t ∨ x ∈ D.hashed t'}

theorem startInput_mem_hashed : startInput t ∈ D.hashed t :=
  List.mem_append_left _ List.mem_cons_self

theorem entryInputs_mem_hashed {entry : TranscriptEntry} (h : entry ∈ t.visible) :
    bytes entry.body ∈ D.hashed t ∧ D.contentInput entry ∈ D.hashed t := by
  have hin : ∀ x ∈ [bytes entry.body, D.contentInput entry], x ∈ D.hashed t := by
    intro x hx
    exact List.mem_append_left _ (List.mem_cons_of_mem _ (List.mem_flatMap.2 ⟨entry, h, hx⟩))
  exact ⟨hin _ List.mem_cons_self, hin _ (List.mem_cons_of_mem _ List.mem_cons_self)⟩

theorem chainInputs_mem_hashed (n : Nat) :
    ∀ x ∈ HashChain.inputs D.sha256 chainInput (D.sha256 (startInput t))
      ((t.visible.take n).map (D.chainItem t)), x ∈ D.hashed t := by
  intro x hx
  rw [List.map_take] at hx
  exact List.mem_append_right _ (HashChain.inputs_take_subset _ _ _ _ n hx)

theorem startInput_inj {t' : DomainTranscript} (h : startInput t = startInput t') :
    t.historyTruncated = t'.historyTruncated := by
  have hflag := List.append_cancel_left h
  cases hold : t.historyTruncated <;> cases hold' : t'.historyTruncated <;>
    simp_all

/-- Equal items are of equal entries. -/
theorem entries_eq_of_items {t' : DomainTranscript}
    (hhash : Set.InjOn D.sha256 (D.hashedOfBoth t t')) {entries entries' : List TranscriptEntry}
    (hsub : ∀ entry ∈ entries, entry ∈ t.visible) (hsub' : ∀ entry ∈ entries', entry ∈ t'.visible)
    (h : entries.map (D.chainItem t) = entries'.map (D.chainItem t')) : entries = entries' := by
  induction entries generalizing entries' with
  | nil => exact (List.map_eq_nil_iff.1 h.symm).symm
  | cons entry rest ih =>
    cases entries' with
    | nil => cases h
    | cons entry' rest' =>
      obtain ⟨hitem, htail⟩ := List.cons.inj h
      obtain ⟨hbody, hcontent⟩ := entryInputs_mem_hashed (D := D) (hsub entry List.mem_cons_self)
      obtain ⟨hbody', hcontent'⟩ :=
        entryInputs_mem_hashed (D := D) (hsub' entry' List.mem_cons_self)
      obtain rfl := entry_eq_of_content hhash (.inl hbody) (.inr hbody') (.inl hcontent)
        (.inr hcontent') (congrArg ChainItem.content hitem)
      rw [ih (fun e he => hsub e (List.mem_cons_of_mem _ he))
        (fun e he => hsub' e (List.mem_cons_of_mem _ he)) htail]

/-- A proof is of one prefix only: wherever no two texts that were hashed for two transcripts have
one digest, equal proofs are of the same entries, and clients are shown the same of them. -/
theorem prefix_proofs_sound {D : Digests} {t t' : DomainTranscript}
    (hhash : Set.InjOn D.sha256 (D.hashedOfBoth t t'))
    (himages : ImagesCounted t) (himages' : ImagesCounted t') {n n' : Nat} {p : String}
    (hp : (D.transcriptPrefixes t)[n]? = some p) (hp' : (D.transcriptPrefixes t')[n']? = some p) :
    n = n' ∧ t.historyTruncated = t'.historyTruncated ∧ t.visible.take n = t'.visible.take n' ∧
    ∀ entry ∈ t.visible.take n, ∀ body audit coordination,
      D.transcriptEntryView t entry body audit coordination
        = D.transcriptEntryView t' entry body audit coordination := by
  obtain ⟨hn, rfl⟩ := getElem?_transcriptPrefixes hp
  obtain ⟨hn', hproof⟩ := getElem?_transcriptPrefixes hp'
  have hfresh : ∀ (t : DomainTranscript) (current : Vector UInt8 32) (item : ChainItem),
      chainInput current item ≠ startInput t := by
    intro t current item h
    have hlong := length_chainInput current item
    rw [h, length_startInput] at hlong
    omega
  obtain ⟨hstart, hitems⟩ := HashChain.run_inj hhash (.inl startInput_mem_hashed)
    (.inr startInput_mem_hashed) (hfresh t) (hfresh t')
    (fun item hitem item' hitem' current current' h => by
      obtain ⟨entry, hentry, rfl⟩ := List.mem_map.1 hitem
      obtain ⟨entry', hentry', rfl⟩ := List.mem_map.1 hitem'
      exact chainInput_inj (himages entry (List.mem_of_mem_take hentry))
        (himages' entry' (List.mem_of_mem_take hentry')) h)
    (fun x hx => .inl (chainInputs_mem_hashed n x hx))
    (fun x hx => .inr (chainInputs_mem_hashed n' x hx)) (hexDigest_injective hproof)
  have hentries : t.visible.take n = t'.visible.take n' := entries_eq_of_items hhash
    (fun _ h => List.mem_of_mem_take h) (fun _ h => List.mem_of_mem_take h) hitems
  have hlength := congrArg List.length hentries
  rw [List.length_take, List.length_take] at hlength
  refine ⟨by omega, startInput_inj hstart, hentries, ?_⟩
  intro entry hentry body audit coordination
  rw [← hentries] at hitems
  exact transcriptEntryView_congr (List.map_inj_left.1 hitems entry hentry) _ _ _

/-- A digest of the length and the first bytes. -/
def lengthAndLeading : Digests where
  sha256 bytes := Vector.ofFn fun i => if i.val = 0 then UInt8.ofNat bytes.length else bytes.getD i 0
  auditField _ _ := none
  uuidV5 := id

def greeting : TranscriptEntry :=
  { id := "one", kind := .user, title := "You", body := "Hello", status := .complete }

def greetingOnly : DomainTranscript := ⟨[greeting], ∅, false, "", false⟩

/-- The greeting in a session with a run, whose entries are not visible. -/
def greetingAndWork : DomainTranscript :=
  ⟨[{ greeting with id := "two", key := some "subagent:run" }, greeting], ∅, true, "Working", false⟩

def greetingProof : String := ((lengthAndLeading.transcriptPrefixes greetingOnly)[1]?).getD ""

theorem prefix_proofs_sound_greeting :
    greetingOnly.visible.take 1 = greetingAndWork.visible.take 1 ∧
    ∀ entry ∈ greetingOnly.visible.take 1, ∀ body audit coordination,
      lengthAndLeading.transcriptEntryView greetingOnly entry body audit coordination
        = lengthAndLeading.transcriptEntryView greetingAndWork entry body audit coordination := by
  have hhash : ∀ x ∈ lengthAndLeading.hashed greetingOnly ++ lengthAndLeading.hashed greetingAndWork,
      ∀ x' ∈ lengthAndLeading.hashed greetingOnly ++ lengthAndLeading.hashed greetingAndWork,
      lengthAndLeading.sha256 x = lengthAndLeading.sha256 x' → x = x' := by
    decide +kernel
  have hcounted : ImagesCounted greetingOnly ∧ ImagesCounted greetingAndWork := by
    unfold ImagesCounted
    decide +kernel
  have hproof : (lengthAndLeading.transcriptPrefixes greetingOnly)[1]? = some greetingProof := by
    decide +kernel
  have hproof' : (lengthAndLeading.transcriptPrefixes greetingAndWork)[1]? = some greetingProof := by
    decide +kernel
  exact (prefix_proofs_sound
    (fun x hx x' hx' => hhash x (List.mem_append.2 hx) x' (List.mem_append.2 hx'))
    hcounted.1 hcounted.2 hproof hproof').2.2

end Digests

end Nakode
