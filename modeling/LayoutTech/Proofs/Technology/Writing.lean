import LayoutTech.Proofs.Technology.Reading
import LayoutTech.Proofs.Technology.RoundTrip

/-!
# What can be written

A technology can be written exactly when its database unit, the names of its options and its components allow it.
Reading asks for one thing more: a grid that is not finite is written, and its document is refused.
-/

namespace LayoutTech

/-! ## Steps that succeed -/

namespace Technology

section Steps

variable {ε α β : Type}

/-- A step succeeds before others that succeed, whatever it gives them, when `p` holds. -/
theorem exists_bind_iff {x : Except ε α} {f : α → Except ε β} {p : Prop} (next : ∀ a, (∃ b, f a = .ok b) ↔ p) :
    (∃ b, (x >>= f) = .ok b) ↔ (∃ a, x = .ok a) ∧ p := by
  cases x with
  | error e => exact ⟨nofun, nofun⟩
  | ok a => exact (next a).trans (and_iff_right ⟨a, rfl⟩).symm

theorem exists_pure_iff {a : α} : (∃ b, (pure a : Except ε α) = .ok b) ↔ True := iff_of_true ⟨a, rfl⟩ trivial

theorem exists_mapM_iff {f : α → Except ε β} {as : List α} :
    (∃ bs, as.mapM f = .ok bs) ↔ ∀ a ∈ as, ∃ b, f a = .ok b := by
  induction as with
  | nil => exact ⟨fun _ => List.forall_mem_nil _, fun _ => ⟨_, rfl⟩⟩
  | cons a as ih =>
      rw [List.mapM_cons, List.forall_mem_cons, ← ih]
      apply exists_bind_iff
      intro b
      rw [exists_bind_iff fun _ => exists_pure_iff, and_true]

theorem exists_mapError_iff {δ : Type} {f : ε → δ} {x : Except ε α} :
    (∃ a, x.mapError f = .ok a) ↔ ∃ a, x = .ok a := by
  simp only [Traced.mapError_eq_ok]

end Steps

/-! ## Options -/

theorem exists_writeFormat_iff {tag : String} {format : String × Table String} :
    (∃ e, writeFormat tag format = .ok e) ↔
      isTagName format.1 ∧ ∀ option ∈ format.2.entries, isTagName option.1 := by
  refine ⟨fun ⟨e, written⟩ => ?_, fun ⟨name, keys⟩ => ⟨_, writeFormat_eq tag name keys⟩⟩
  unfold writeFormat at written
  split at written
  · cases written
  · next name =>
      refine ⟨by simpa using name, ?_⟩
      split at written
      · cases written
      · next keys =>
          intro option ho
          have key := List.find?_eq_none.1 keys option.1 (List.mem_map_of_mem ho)
          simpa using key

theorem exists_writeOptions_iff {tag : String} {options : LayoutOptions} :
    (∃ e, writeOptions tag options = .ok e) ↔ HasTagNames options := by
  rw [writeOptions, exists_bind_iff fun _ => exists_pure_iff, and_true, exists_mapM_iff]
  simp only [exists_writeFormat_iff, HasTagNames]

/-! ## Technologies -/

/-- What a technology must have to be written. -/
structure IsWritable (codecs : Codecs) (t : Technology) : Prop where
  unit : isUnit t.dbu
  readerOptions : HasTagNames t.readerOptions
  writerOptions : HasTagNames t.writerOptions
  components : ∀ entry ∈ t.components.entries, ∃ block, codecs.encode entry.2 = .ok block

variable {codecs : Codecs} {style : Xml.Style} {t : Technology} {document : String}

theorem exists_toElement_iff : (∃ e, t.toElement codecs = .ok e) ↔ t.IsWritable codecs := by
  rw [toElement]
  cases unit : isUnit t.dbu with
  | false =>
      constructor
      · rintro ⟨e, written⟩
        cases written
      · intro h
        exact absurd (unit.symm.trans h.unit) Bool.false_ne_true
  | true =>
      rw [Bool.not_true, if_neg Bool.false_ne_true,
        exists_bind_iff fun _ => exists_bind_iff fun _ => exists_bind_iff fun _ => exists_pure_iff, and_true,
        exists_mapError_iff, exists_mapError_iff, exists_writeOptions_iff, exists_writeOptions_iff, exists_mapM_iff,
        Table.values, List.forall_mem_map]
      constructor
      · rintro ⟨reader, writer, blocks⟩
        exact ⟨unit, reader, writer, blocks⟩
      · intro h
        exact ⟨h.readerOptions, h.writerOptions, h.components⟩

theorem exists_write_iff : (∃ document, t.write codecs style = .ok document) ↔ t.IsWritable codecs := by
  rw [write, exists_bind_iff fun _ => exists_pure_iff, and_true, exists_toElement_iff]

/-! ## What was read -/

theorem isUnit_of_ofElement {e : Xml.Element} (read : (ofElement .builtin e).result = .ok t) : isUnit t.dbu := by
  obtain ⟨readable, describes⟩ := describes_of_ofElement read
  have last := describes.fields .dbu
  rw [FromLast] at last
  split at last
  · next child found =>
      obtain ⟨mem, tag⟩ := List.mem_filter.1 (List.mem_of_getLast? found)
      obtain ⟨dbu, text, finite, positive⟩ := readable.accepted child mem .dbu (of_decide_eq_true tag)
      obtain rfl : dbu = t.dbu := Option.some.inj (text.symm.trans last)
      rw [isUnit, finite, positive]
      rfl
  · have same : t.dbu = ({} : Technology).dbu := last
    rw [same]
    decide +kernel

/-- Of what was read only the names of options can keep a technology from being written. -/
theorem isWritable_iff_of_ofElement {e : Xml.Element} (read : (ofElement .builtin e).result = .ok t) :
    t.IsWritable .builtin ↔ HasTagNames t.readerOptions ∧ HasTagNames t.writerOptions := by
  refine ⟨fun h => ⟨h.readerOptions, h.writerOptions⟩, fun ⟨reader, writer⟩ => ?_⟩
  refine ⟨isUnit_of_ofElement read, reader, writer, fun entry he => ?_⟩
  have there : t.component? entry.1 = some entry.2 := Table.get?_eq_some_iff.2 he
  obtain ⟨block, -, -, decoded⟩ := ((describes_of_ofElement read).2.components entry.1 entry.2).1 there
  exact Codecs.exists_encode decoded

/-! ## Without components -/

theorem isWritable_iff_of_bare (bare : t.components = .empty) :
    t.IsWritable codecs ↔ isUnit t.dbu ∧ HasTagNames t.readerOptions ∧ HasTagNames t.writerOptions := by
  refine ⟨fun h => ⟨h.unit, h.readerOptions, h.writerOptions⟩, fun ⟨unit, reader, writer⟩ => ⟨unit, reader, writer, ?_⟩⟩
  rw [bare]
  exact List.forall_mem_nil _

/-- A technology without components has one document in each style, whatever the codecs. -/
theorem write_of_bare (bare : t.components = .empty) (written : write codecs style t = .ok document) :
    isUnit t.dbu ∧ t.element.Survives style ∧ document = t.element.toDocument style := by
  obtain ⟨unit, reader, writer⟩ := (isWritable_iff_of_bare bare).1 (exists_write_iff.1 ⟨document, written⟩)
  have blocks : ∀ entry ∈ t.components.entries,
      codecs.encode entry.2 = .ok entry.2.block ∧ entry.2.block.Survives style := by
    rw [bare]
    exact List.forall_mem_nil _
  rw [write, toElement_eq unit reader writer fun entry he => (blocks entry he).1] at written
  exact ⟨unit, survives_element reader writer fun entry he => (blocks entry he).2, (Except.ok.inj written).symm⟩

theorem result_ofElement_of_bare (bare : t.components = .empty) (unit : isUnit t.dbu) (codecs : Codecs) :
    (ofElement codecs t.element).result =
      match t.grids.unreadable? with
      | none => .ok t.stored
      | some v => .error (.malformed (.grids (.notFinite (toString v)))) := by
  have children := result_foldlM_children codecs unit
  rw [bare, Grids.result_ofText_toText] at children
  rw [ofElement, Traced.result_bind, children]
  cases t.grids.unreadable? with
  | none =>
      have same : { t.stored with components := .empty } = t.stored := by rw [← bare]; rfl
      exact congrArg Except.ok same
  | some v => rfl

theorem result_parse_of_bare (bare : t.components = .empty) (written : write codecs style t = .ok document)
    (others : Codecs) :
    (parse others document).result =
      match t.grids.unreadable? with
      | none => .ok t.stored
      | some v => .error (.malformed (.grids (.notFinite (toString v)))) := by
  obtain ⟨unit, survives, rfl⟩ := write_of_bare bare written
  rw [parse_of_rootOf (rootOf_toDocument survives), result_ofElement_of_bare bare unit]

/-- A technology without components can be written when its unit and its options allow it. What is written can be
read exactly when all grids are finite, and otherwise the fault names the first that is not. -/
theorem write_then_parse (bare : t.components = .empty) (codecs others : Codecs) (style : Xml.Style) :
    ((∃ document, write codecs style t = .ok document) ↔
        isUnit t.dbu ∧ HasTagNames t.readerOptions ∧ HasTagNames t.writerOptions) ∧
      ∀ document, write codecs style t = .ok document →
        ((∃ u, (parse others document).result = .ok u) ↔ ∀ v ∈ t.grids.values, v.isFinite) ∧
          ∀ v ∈ t.grids.unreadable?,
            (parse others document).result = .error (.malformed (.grids (.notFinite (toString v)))) := by
  refine ⟨exists_write_iff.trans (isWritable_iff_of_bare bare), fun document written => ?_⟩
  rw [result_parse_of_bare bare written, ← Grids.unreadable?_eq_none]
  cases t.grids.unreadable? with
  | none => simp
  | some v => simp

theorem write_then_parse_fine :
    let t : Technology :=
      { name := "fine", grids := ⟨[Decimal.toBinary false ⟨5, -3⟩], none⟩
        readerOptions := .ofList [("gds2", "box-record", "1 & 2")] }
    ∃ document, write .builtin .pretty t = .ok document ∧ ∃ u, (parse .builtin document).result = .ok u := by
  intro t
  obtain ⟨writable, readable⟩ := write_then_parse (t := t) rfl .builtin .builtin .pretty
  obtain ⟨document, written⟩ := writable.2 (by decide +kernel)
  exact ⟨document, written, (readable document written).1.2 (by decide +kernel)⟩

/-- A grid that is no number is written in a document that cannot be read. -/
theorem write_then_parse_nan :
    let t : Technology := { name := "t", grids := .ofValues [.nan] }
    let document := "<?xml version=\"1.0\" encoding=\"utf-8\"?><technology><name>t</name><dbu>0.001</dbu>" ++
      "<description/><group/><default-grids>NaN</default-grids><layer-properties-file/><default-base-path/>" ++
      "<explicit-base-path/><add-other-layers>true</add-other-layers><reader-options/><writer-options/>" ++
      "<components/></technology>"
    t.components = .empty ∧ write .builtin .compact t = .ok document ∧
      (parse .builtin document).result = .error (.malformed (.grids (.notFinite "NaN"))) := by
  intro t document
  have written : write .builtin .compact t = .ok document := by decide +kernel
  exact ⟨rfl, written, result_parse_of_bare rfl written .builtin⟩

end Technology

end LayoutTech
