/-
Dumps in blocks: when the records a parser returns are the records of the
blocks, each made of the lines of its own block.

* `Block`, `BlockLines`, `BlockDump`: blocks of labelled lines, between blank
  lines;
* `separate_iff`: the parser of a format makes one record of each complete
  block exactly when all values can be read and no incomplete block leaves a
  value for a label that the next complete block lacks;
* `Evaluator.Closed`, `parseAuthorityData_of_flagsClosed`: flags that neither read
  nor change the variables of the parser.
-/
import AdcsConnector.Records

namespace AdcsConnector

open Text Blocks

/-! ### Blocks -/

/-- The labelled values of a block: any of the labels, each at most once, the
completing label last. -/
structure Block (labels : List String) (completing : String) where
  entries : List (String × String)
  nodup : (Dict.keys entries).Nodup
  mem_labels : ∀ entry ∈ entries, entry.1 ∈ labels
  completing_last : ∀ entry ∈ entries.dropLast, entry.1 ≠ completing

namespace Block

variable {labels : List String} {completing : String} (b : Block labels completing)

/-- The value of a label of the block. -/
def value (label : String) : Option String := Dict.get? b.entries label

/-- The block holds the completing label. -/
def completes : Bool := (b.value completing).isSome

variable {b}

lemma value_eq_none {label : String} : b.value label = none ↔ label ∉ Dict.keys b.entries := by
  constructor
  · intro h hmem
    obtain ⟨v, hv, -⟩ := Dict.get?_of_mem_keys hmem
    rw [value, hv] at h
    cases h
  · intro h
    cases hvalue : b.value label with
    | none => rfl
    | some v => exact absurd (List.mem_map_of_mem (Dict.mem_of_get? hvalue)) h

end Block

/-- The lines of a block: none is indented, one for each labelled value, and
others with labels that are not recognised. -/
def BlockLines {labels : List String} {completing : String} (b : Block labels completing)
    (ls : List (List Char)) : Prop :=
  ls ≠ [] ∧ (∀ l ∈ ls, Unindented l) ∧
    Interspersed (fun entry l => IsEntry entry.1 entry.2.toList l) (Unrecognised labels)
      b.entries ls

/-- The text of a dump in blocks, with separators in between and at both ends. -/
inductive BlockDump {β : Type} (Lines : β → List (List Char) → Prop)
    (Separator : List Char → Prop) (blocks : List β) (text : String) : Prop
  | mk {lead body : List (List Char)} (hlead : ∀ l ∈ lead, Separator l)
      (hbody : Separated Lines Separator blocks body) (hnewline : ∀ l ∈ lead ++ body, '\n' ∉ l)
      (htext : text.toList = unlines (lead ++ body))

/-- The value that the last of the blocks to have the label gives to it. -/
def latest {labels : List String} {completing : String} (blocks : List (Block labels completing))
    (label : String) : Option String :=
  blocks.reverse.findSome? fun b => b.value label

/-! ### Records of blocks -/

/-- The labelled values of one block, one after the other. -/
def RecordFormat.blockStep {ρ : Type} (fmt : RecordFormat ρ) (st : ρ × List ρ)
    (b : Block fmt.labels fmt.completing) : Except PyError (ρ × List ρ) :=
  b.entries.foldlM fmt.entryStep st

namespace Reading

variable {ρ : Type} {fmt : RecordFormat ρ} (rd : Reading fmt)

/-- A record made of the lines of one block only: a label of the block has the
value of its line, any other is the empty string. -/
def IsRecordOf (b : Block fmt.labels fmt.completing) (record : ρ) : Prop :=
  ∃ σ, record = rd.build σ ∧ ∀ label ∈ fmt.labels,
    match b.value label with
    | none => σ label = .str ""
    | some value => rd.read label value = .ok (σ label)

/-- Every value of the blocks can be read. -/
def AllBlocksRead (blocks : List (Block fmt.labels fmt.completing)) : Prop :=
  ∀ b ∈ blocks, ∀ entry ∈ b.entries, ∃ a, rd.read entry.1 entry.2 = .ok a

/-- Whatever the incomplete blocks directly before a complete block give to a
label that this one lacks reads as the empty string. -/
def NothingCarried (blocks : List (Block fmt.labels fmt.completing)) : Prop :=
  ∀ p ∈ segments Block.completes blocks, ∀ label ∈ fmt.labels, p.2.value label = none →
    ∀ value, latest p.1 label = some value → rd.read label value = .ok (.str "")

variable {rd}

/-- What a block overlays. -/
lemma overlay_block (b : Block fmt.labels fmt.completing) (σ : String → PyValue) (label : String) :
    rd.overlay σ b.entries label =
      match b.value label with
      | none => σ label
      | some value => rd.valueOf (label, value) := by
  cases hvalue : b.value label with
  | none => exact overlay_of_not_mem (Block.value_eq_none.mp hvalue)
  | some value => exact overlay_of_mem b.nodup (Dict.mem_of_get? hvalue)

/-- What several blocks overlay: the latest values. -/
lemma overlay_blocks (blocks : List (Block fmt.labels fmt.completing)) (σ : String → PyValue)
    (label : String) :
    rd.overlay σ (blocks.flatMap (·.entries)) label =
      match latest blocks label with
      | none => σ label
      | some value => rd.valueOf (label, value) := by
  induction blocks using List.reverseRecOn with
  | nil => rfl
  | append_singleton blocks b ih =>
      have hsplit : rd.overlay σ ((blocks ++ [b]).flatMap (·.entries)) =
          rd.overlay (rd.overlay σ (blocks.flatMap (·.entries))) b.entries := by
        simp [overlay]
      rw [hsplit, overlay_block, ih, latest, latest, List.reverse_append, List.reverse_singleton,
        List.singleton_append, List.findSome?_cons]
      cases b.value label <;> rfl

/-- Values overlaid are values read. -/
lemma overlay_isRead {entries : List (String × String)} (hread : rd.AllRead entries)
    {σ : String → PyValue} {label : String}
    (hσ : σ label = .str "" ∨ ∃ value, rd.read label value = .ok (σ label)) :
    rd.overlay σ entries label = .str "" ∨
      ∃ value, rd.read label value = .ok (rd.overlay σ entries label) := by
  induction entries generalizing σ with
  | nil => exact hσ
  | cons entry entries ih =>
      rw [AllRead, List.forall_mem_cons] at hread
      refine ih hread.2 ?_
      by_cases hlabel : label = entry.1
      · subst hlabel
        simpa using Or.inr ⟨entry.2, hread.1⟩
      · simpa [Function.update_of_ne hlabel] using hσ

/-- The record of everything the blocks give, a later value over an earlier
one. -/
def ofBlocks (rd : Reading fmt) (blocks : List (Block fmt.labels fmt.completing)) : ρ :=
  rd.build (rd.overlay (fun _ => .str "") (blocks.flatMap (·.entries)))

lemma overlay_gathered (gathered : List (Block fmt.labels fmt.completing))
    (b : Block fmt.labels fmt.completing) (σ : String → PyValue) :
    rd.overlay σ ((gathered ++ [b]).flatMap (·.entries)) =
      rd.overlay (rd.overlay σ (gathered.flatMap (·.entries))) b.entries := by
  simp [overlay]

/-- The machine on the lines of a complete block. -/
lemma foldlM_complete (hcompleting : fmt.completing ∈ fmt.labels)
    {b : Block fmt.labels fmt.completing} (hread : rd.AllRead b.entries) (hb : b.completes)
    (σ : String → PyValue) (records : List ρ) :
    b.entries.foldlM fmt.entryStep (rd.build σ, records) =
      .ok (rd.build fun _ => .str "", records ++ [rd.build (rd.overlay σ b.entries)]) := by
  have hkeys : fmt.completing ∈ Dict.keys b.entries := by
    by_contra h
    rw [Block.completes, Block.value_eq_none.mpr h] at hb
    simp at hb
  obtain ⟨rest, value, hentries, hrest⟩ := exists_concat_of_completing hkeys b.completing_last
  have hlabels := b.mem_labels
  rw [hentries] at hread hlabels ⊢
  exact foldlM_entryStep_completing
    (fun entry hentry => hlabels entry (List.mem_append_left _ hentry)) hcompleting hread hrest

/-- The machine on the lines of an incomplete block. -/
lemma foldlM_incomplete {b : Block fmt.labels fmt.completing} (hread : rd.AllRead b.entries)
    (hb : ¬ b.completes) (σ : String → PyValue) (records : List ρ) :
    b.entries.foldlM fmt.entryStep (rd.build σ, records) =
      .ok (rd.build (rd.overlay σ b.entries), records) := by
  refine foldlM_entryStep b.mem_labels hread (Block.value_eq_none.mp ?_)
  simpa [Block.completes] using hb

/-- The machine stops when a value cannot be read. -/
lemma allBlocksRead_of_foldlM (hcompleting : fmt.completing ∈ fmt.labels)
    {blocks : List (Block fmt.labels fmt.completing)} {σ : String → PyValue}
    {records : List ρ} {st : ρ × List ρ}
    (h : blocks.foldlM fmt.blockStep (rd.build σ, records) = .ok st) : rd.AllBlocksRead blocks := by
  induction blocks generalizing σ records with
  | nil => simp [AllBlocksRead]
  | cons b blocks ih =>
      rw [List.foldlM_cons, RecordFormat.blockStep] at h
      have hread : rd.AllRead b.entries := by
        cases hb : b.entries.foldlM fmt.entryStep (rd.build σ, records) with
        | error e =>
            rw [hb] at h
            cases h
        | ok st' => exact allRead_of_foldlM b.mem_labels hb
      refine List.forall_mem_cons.mpr
        ⟨fun entry hentry => read_valueOf_iff.mp (hread entry hentry), ?_⟩
      by_cases hb : b.completes
      · rw [foldlM_complete hcompleting hread hb] at h
        exact ih h
      · rw [foldlM_incomplete hread hb] at h
        exact ih h

/-- The machine on the blocks. -/
lemma foldlM_blocks (hcompleting : fmt.completing ∈ fmt.labels)
    {blocks : List (Block fmt.labels fmt.completing)} (hread : rd.AllBlocksRead blocks) :
    ∃ st, blocks.foldlM fmt.blockStep (fmt.empty, []) =
      .ok (st, (segments Block.completes blocks).map fun p => rd.ofBlocks (p.1 ++ [p.2])) := by
  have hall : ∀ b ∈ blocks, rd.AllRead b.entries := fun b hb entry hentry =>
    read_valueOf_iff.mpr (hread b hb entry hentry)
  have hcomplete : ∀ b ∈ blocks, b.completes → ∀ g rs,
      fmt.blockStep (rd.ofBlocks g, rs) b =
        .ok (rd.ofBlocks [], rs ++ [rd.ofBlocks (g ++ [b])]) := by
    intro b hb hc g rs
    rw [RecordFormat.blockStep, ofBlocks, foldlM_complete hcompleting (hall b hb) hc, ofBlocks,
      ofBlocks, overlay_gathered]
    rfl
  have hincomplete : ∀ b ∈ blocks, ¬ b.completes → ∀ g rs,
      fmt.blockStep (rd.ofBlocks g, rs) b = .ok (rd.ofBlocks (g ++ [b]), rs) := by
    intro b hb hc g rs
    rw [RecordFormat.blockStep, ofBlocks, foldlM_incomplete (hall b hb) hc, ofBlocks,
      overlay_gathered]
  obtain ⟨gathered, h⟩ := @foldlM_segmentsFrom _ _ _ _ Block.completes rd.ofBlocks
    (fun g b => rd.ofBlocks (g ++ [b])) fmt.blockStep []
    blocks hcomplete hincomplete []
  refine ⟨rd.ofBlocks gathered, ?_⟩
  rw [rd.empty_eq]
  exact h

/-- With readable values, the record of a block is made of its own values. -/
lemma isRecordOf_iff {b : Block fmt.labels fmt.completing} (hread : rd.AllRead b.entries)
    {record : ρ} : rd.IsRecordOf b record ↔ record = rd.ofBlocks [b] := by
  have hvalue : ∀ {label value}, b.value label = some value →
      rd.read label value = .ok (rd.valueOf (label, value)) := fun h =>
    hread _ (Dict.mem_of_get? h)
  constructor
  · rintro ⟨σ, rfl, hσ⟩
    refine rd.build_congr _ _ fun label hlabel => ?_
    have hlabel := hσ label hlabel
    rw [List.flatMap_singleton, overlay_block]
    cases hv : b.value label with
    | none => simpa [hv] using hlabel
    | some value =>
        simp only [hv, hvalue hv] at hlabel
        exact (Except.ok.inj hlabel).symm
  · rintro rfl
    refine ⟨_, rfl, fun label hlabel => ?_⟩
    rw [List.flatMap_singleton, overlay_block]
    cases hv : b.value label with
    | none => rfl
    | some value => exact hvalue hv

/-- What is gathered before a complete block does not matter exactly when it
reads as empty wherever the block lacks a label. -/
lemma ofBlocks_append_eq_iff {gathered : List (Block fmt.labels fmt.completing)}
    {b : Block fmt.labels fmt.completing} (hgathered : ∀ x ∈ gathered, rd.AllRead x.entries)
    (hb : rd.AllRead b.entries) :
    rd.ofBlocks (gathered ++ [b]) = rd.ofBlocks [b] ↔
      ∀ label ∈ fmt.labels, b.value label = none → ∀ value, latest gathered label = some value →
        rd.read label value = .ok (.str "") := by
  have hall : rd.AllRead (gathered.flatMap (·.entries)) := by
    intro entry hentry
    obtain ⟨x, hx, hentry⟩ := List.mem_flatMap.mp hentry
    exact hgathered x hx entry hentry
  have hlatest : ∀ {label value}, latest gathered label = some value →
      rd.read label value = .ok (rd.valueOf (label, value)) := by
    intro label value h
    obtain ⟨x, hx, hvalue⟩ := List.exists_of_findSome?_eq_some h
    exact hgathered x (List.mem_reverse.mp hx) _ (Dict.mem_of_get? hvalue)
  have hlabel : ∀ label, rd.overlay (fun _ => .str "") ((gathered ++ [b]).flatMap (·.entries))
      label = rd.overlay (fun _ => .str "") ([b].flatMap (·.entries)) label ↔
        (b.value label = none → ∀ value, latest gathered label = some value →
          rd.read label value = .ok (.str "")) := by
    intro label
    rw [overlay_gathered, List.flatMap_singleton, overlay_block, overlay_block, overlay_blocks]
    cases hv : b.value label with
    | some value => simp
    | none =>
        cases hl : latest gathered label with
        | none => simp
        | some value => simp [hlatest hl]
  have hisRead : ∀ entries, rd.AllRead entries → ∀ label,
      rd.overlay (fun _ => .str "") entries label = .str "" ∨ ∃ value,
        rd.read label value = .ok (rd.overlay (fun _ => .str "") entries label) :=
    fun entries hentries label => overlay_isRead hentries (.inl rfl)
  constructor
  · intro h label hmem
    have hboth : rd.AllRead ((gathered ++ [b]).flatMap (·.entries)) := by
      rw [List.flatMap_append, List.flatMap_singleton]
      exact List.forall_mem_append.mpr ⟨hall, hb⟩
    have hone : rd.AllRead ([b].flatMap (·.entries)) := by rwa [List.flatMap_singleton]
    exact (hlabel label).mp (rd.build_inj _ _ (fun l _ => hisRead _ hboth l)
      (fun l _ => hisRead _ hone l) h label hmem)
  · intro h
    exact rd.build_congr _ _ fun label hmem => (hlabel label).mpr (h label hmem)

end Reading

/-! ### The dumps of records -/

section Lines

variable {labels : List String} {completing : String} {blocks : List (Block labels completing)}
  {lead body : List (List Char)}

/-- A line of a dump is blank or a line of a block. -/
lemma blank_or_mem_block (hlead : ∀ l ∈ lead, Blank l)
    (hbody : Separated BlockLines Blank blocks body) {l : List Char} (hl : l ∈ lead ++ body) :
    Blank l ∨ ∃ b ∈ blocks, ∃ ls, BlockLines b ls ∧ l ∈ ls := by
  rcases List.mem_append.mp hl with hl | hl
  · exact .inl (hlead l hl)
  · exact hbody.mem_cases hl

lemma startsUnindented_blocks (hlead : ∀ l ∈ lead, Blank l)
    (hbody : Separated BlockLines Blank blocks body) : StartsUnindented (lead ++ body) := by
  refine startsUnindented_of_forall fun l hl hblank => ?_
  obtain ⟨b, -, ls, ⟨-, hindent, -⟩, hmem⟩ :=
    (blank_or_mem_block hlead hbody hl).resolve_left hblank
  exact hindent l hmem

end Lines

variable {ρ : Type} {fmt : RecordFormat ρ} {blocks : List (Block fmt.labels fmt.completing)}
  {text : String} {inputData : Response}

/-- The parse of a dump in blocks is the machine on their entries. -/
lemma parse_of_blockDump (hplain : fmt.Plain) (h : BlockDump BlockLines Blank blocks text)
    (hout : inputData.stdOut = text.toUTF8) :
    fmt.parse inputData = (blocks.foldlM fmt.blockStep (fmt.empty, [])).map Prod.snd := by
  obtain ⟨hlead, hbody, hnewline, htext⟩ := h
  rename_i lead body
  have hstart := startsUnindented_blocks hlead hbody
  have hcolon : ∀ l ∈ lead ++ body, Unrecognised fmt.labels l ∨ ':' ∈ l := by
    intro l hl
    rcases blank_or_mem_block hlead hbody hl with hblank | ⟨b, -, ls, ⟨-, -, hlines⟩, hmem⟩
    · exact .inl (RecordFormat.unrecognised_of_blank hplain hblank)
    · exact (hlines.mem_cases hmem).imp_right fun ⟨entry, _, hentry⟩ =>
        colon_mem_of_getValueFromLine hentry.2
  have hblank : ∀ l, Blank l → ∀ st, fmt.step st l = .ok st := fun l hl st =>
    RecordFormat.step_of_unrecognised (RecordFormat.unrecognised_of_blank hplain hl) st
  have hblock : ∀ b ∈ blocks, ∀ ls, BlockLines b ls → ∀ st,
      ls.foldlM fmt.step st = fmt.blockStep st b := fun b _ ls hls st =>
    hls.2.2.foldlM (fun l hl st => RecordFormat.step_of_unrecognised hl st)
      (fun entry hentry l hl st =>
        RecordFormat.step_of_isEntry hplain (b.mem_labels entry hentry) hl st) st
  rw [RecordFormat.parse_of_lines hplain htext hnewline hstart hcolon hout,
    Rows.foldlM_append_of_ok (Rows.foldlM_eq_self fun l hl => hblank l (hlead l hl) _),
    hbody.foldlM hblank hblock]

/-- **When records do not bleed into each other.** On a dump in blocks, the
parser makes one record of each complete block, in order and of its own lines
only, exactly when every value can be read and no incomplete block directly
before a complete one leaves a value that this one lacks. -/
theorem separate_iff {rd : Reading fmt} (hplain : fmt.Plain)
    (hcompleting : fmt.completing ∈ fmt.labels) (h : BlockDump BlockLines Blank blocks text)
    (hout : inputData.stdOut = text.toUTF8) :
    (∃ records, fmt.parse inputData = .ok records ∧
        List.Forall₂ rd.IsRecordOf (blocks.filter Block.completes) records) ↔
      rd.AllBlocksRead blocks ∧ rd.NothingCarried blocks := by
  rw [parse_of_blockDump hplain h hout]
  have hforall : rd.AllBlocksRead blocks → ∀ b ∈ blocks, rd.AllRead b.entries :=
    fun hread b hb entry hentry => Reading.read_valueOf_iff.mpr (hread b hb entry hentry)
  -- the records expected, and the condition, segment by segment
  have hrecords : rd.AllBlocksRead blocks → ∀ records,
      (List.Forall₂ rd.IsRecordOf (blocks.filter Block.completes) records ↔
        (blocks.filter Block.completes).map (fun b => rd.ofBlocks [b]) = records) := by
    intro hread records
    rw [← List.forall₂_eq_eq_eq, List.forall₂_map_left_iff]
    have hmem : ∀ b ∈ blocks.filter Block.completes, rd.AllRead b.entries := fun b hb =>
      hforall hread b (List.mem_of_mem_filter hb)
    constructor
    · intro h
      refine ((List.forall₂_and_left _ _).mpr ⟨hmem, h⟩).imp fun b record ⟨hb, hrec⟩ => ?_
      exact ((Reading.isRecordOf_iff hb).mp hrec).symm
    · intro h
      refine ((List.forall₂_and_left _ _).mpr ⟨hmem, h⟩).imp fun b record ⟨hb, hrec⟩ => ?_
      exact (Reading.isRecordOf_iff hb).mpr hrec.symm
  have hcarried : rd.AllBlocksRead blocks → (rd.NothingCarried blocks ↔
      ∀ p ∈ segments Block.completes blocks,
        rd.ofBlocks (p.1 ++ [p.2]) = rd.ofBlocks ([] ++ [p.2])) := by
    intro hread
    refine forall₂_congr fun p hp => ?_
    have hsub := mem_of_mem_segments hp
    exact (Reading.ofBlocks_append_eq_iff (fun x hx => hforall hread x (hsub.1 x hx))
      (hforall hread _ hsub.2)).symm
  have hsegments := @map_segments_eq_iff _ _ Block.completes
    (fun g b => rd.ofBlocks (g ++ [b])) blocks
  constructor
  · rintro ⟨records, hparse, hall⟩
    have hread : rd.AllBlocksRead blocks := by
      cases hrun : blocks.foldlM fmt.blockStep (fmt.empty, []) with
      | error e =>
          rw [hrun] at hparse
          cases hparse
      | ok st =>
          rw [rd.empty_eq] at hrun
          exact Reading.allBlocksRead_of_foldlM hcompleting hrun
    obtain ⟨st, hrun⟩ := Reading.foldlM_blocks hcompleting hread
    rw [hrun] at hparse
    refine ⟨hread, (hcarried hread).mpr (hsegments.mp ?_)⟩
    exact (Except.ok.inj hparse).trans ((hrecords hread records).mp hall).symm
  · rintro ⟨hread, hnothing⟩
    obtain ⟨st, hrun⟩ := Reading.foldlM_blocks hcompleting hread
    refine ⟨_, by rw [hrun]; rfl, (hrecords hread _).mpr ?_⟩
    exact (hsegments.mpr ((hcarried hread).mp hnothing)).symm

/-! ### Flags that are closed -/

section Closed

variable (eval : Evaluator)

/-- The value of a text that needs no variables. -/
def Evaluator.alone (text : String) : Except PyError PyValue :=
  (eval ⟨⟨.empty, .empty, 0⟩, [], [], .blank, []⟩ text).map Evaluation.value

/-- The evaluation of a text neither reads nor changes the variables of the
parser: in every frame it gives the same value, or raises the same, and leaves
the lines and the records alone. -/
def Evaluator.Closed (text : String) : Prop :=
  ∀ frame, eval frame text = (eval.alone text).map frame.keep

/-- The flags of all blocks are closed. -/
def FlagsClosed {completing : String} (blocks : List (Block authorityLabels completing)) : Prop :=
  ∀ b ∈ blocks, ∀ entry ∈ b.entries, entry.1 ∈ flagLabels → eval.Closed entry.2

variable {eval}

/-- The parse of a dump whose flags are closed. -/
lemma parseAuthorityData_of_flagsClosed {blocks : List (Block authorityLabels "ServiceStatus")}
    (hclosed : FlagsClosed eval blocks) (h : BlockDump BlockLines Blank blocks text)
    (hout : inputData.stdOut = text.toUTF8) :
    parseAuthorityData eval inputData = (textFormat eval.alone).parse inputData := by
  obtain ⟨hlead, hbody, hnewline, htext⟩ := h
  refine parseAuthorityData_eq fun ls hls line hline value hvalue => ?_
  obtain ⟨l, hl, hvalue'⟩ := exists_flagTexts_of_dumpLines htext hnewline
    (startsUnindented_blocks hlead hbody) hout hls hline hvalue
  rcases blank_or_mem_block hlead hbody hl with hblank | ⟨b, hb, ls, ⟨-, -, hlines⟩, hmem⟩
  · have hunrec : Unrecognised authorityLabels l :=
      RecordFormat.unrecognised_of_blank (authorityFormat_plain fun _ _ => pure .none) hblank
    exact absurd hvalue' (not_mem_flagTexts hunrec)
  rcases hlines.mem_cases hmem with hunrec | ⟨entry, hmem, hentry⟩
  · exact absurd hvalue' (not_mem_flagTexts hunrec)
  obtain ⟨hflag, rfl⟩ := hentry.of_flagTexts (b.mem_labels entry hmem) hvalue'
  exact hclosed b hb entry hmem hflag

end Closed

end AdcsConnector
