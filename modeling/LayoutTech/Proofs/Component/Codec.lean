import Mathlib.Data.List.Forall2
import LayoutTech.Component.Codec
import LayoutTech.Proofs.Component.Connectivity
import LayoutTech.Proofs.Xml.RoundTrip

/-!
# Written components

A component that has a block of its own is read back from the block that is written for it, and the block
survives in a document. Of connections and symbols exactly the canonical ones are read back.
-/

namespace LayoutTech

namespace Xml.Element

variable {style : Style}

theorem survives_ofText {name : String} (clean : IsClean name) (text : String) : (ofText name text).Survives style := by
  have keeps : style.Keeps (ofText name text) := by
    cases style <;> exact .inl rfl
  exact .mk ⟨⟨clean, by simp [ofText], List.nodup_nil⟩, keeps⟩ fun _ h => nomatch h

theorem survives_ofChildren {name : String} (clean : IsClean name) {children : List Element}
    (h : ∀ c ∈ children, c.Survives style) : (ofChildren name children).Survives style := by
  have keeps : style.Keeps (ofChildren name children) := by
    cases style
    · exact .inr (.inl rfl)
    · exact .inr rfl
  exact .mk ⟨⟨clean, by simp [ofChildren], List.nodup_nil⟩, keeps⟩ h

/-- The indented document asks for more. -/
theorem Survives.of_pretty {e : Element} (h : e.Survives .pretty) : e.Survives style := by
  cases style with
  | pretty => exact h
  | compact => exact h.imp fun _ here => ⟨here.1, here.2.imp_right .inl⟩

end Xml.Element

/-! ## Connectivity -/

namespace Codec

/-- The parts are read as these connections and symbols, the parts of either kind in order. -/
def AreReadAs (parts : List Xml.Element) (connections : List Connection) (symbols : List LayerSymbol) : Prop :=
  List.Forall₂ (fun part c => Connection.ofText part.text = .ok c) (parts.filter (·.name = "connection"))
      connections ∧
    List.Forall₂ (fun part s => LayerSymbol.ofText part.text = .ok s) (parts.filter (·.name = "symbols")) symbols

variable {part : Xml.Element} {parts : List Xml.Element} {connections : List Connection} {symbols : List LayerSymbol}

theorem areReadAs_connection (kind : part.name = "connection") :
    AreReadAs (part :: parts) connections symbols ↔
      ∃ c, Connection.ofText part.text = .ok c ∧ ∃ rest, AreReadAs parts rest symbols ∧ connections = c :: rest := by
  have here : (part :: parts).filter (·.name = "connection") = part :: parts.filter (·.name = "connection") := by
    simp [kind]
  have others : (part :: parts).filter (·.name = "symbols") = parts.filter (·.name = "symbols") := by
    simp [kind]
  rw [AreReadAs, here, others, List.forall₂_cons_left_iff]
  constructor
  · rintro ⟨⟨c, rest, first, hc, rfl⟩, hs⟩
    exact ⟨c, first, rest, ⟨hc, hs⟩, rfl⟩
  · rintro ⟨c, first, rest, ⟨hc, hs⟩, rfl⟩
    exact ⟨⟨c, rest, first, hc, rfl⟩, hs⟩

theorem areReadAs_symbol (kind : part.name = "symbols") :
    AreReadAs (part :: parts) connections symbols ↔
      ∃ s, LayerSymbol.ofText part.text = .ok s ∧ ∃ rest, AreReadAs parts connections rest ∧ symbols = s :: rest := by
  have here : (part :: parts).filter (·.name = "symbols") = part :: parts.filter (·.name = "symbols") := by
    simp [kind]
  have others : (part :: parts).filter (·.name = "connection") = parts.filter (·.name = "connection") := by
    simp [kind]
  rw [AreReadAs, here, others, List.forall₂_cons_left_iff]
  constructor
  · rintro ⟨hc, s, rest, first, hs, rfl⟩
    exact ⟨s, first, rest, ⟨hc, hs⟩, rfl⟩
  · rintro ⟨s, first, rest, ⟨hc, hs⟩, rfl⟩
    exact ⟨hc, s, rest, first, hs, rfl⟩

theorem areReadAs_ignored (notConnection : part.name ≠ "connection") (notSymbol : part.name ≠ "symbols") :
    AreReadAs (part :: parts) connections symbols ↔ AreReadAs parts connections symbols := by
  rw [AreReadAs, List.filter_cons_of_neg (by simpa using notConnection),
    List.filter_cons_of_neg (by simpa using notSymbol), AreReadAs]

/-- Reading succeeds with what the parts of the two kinds are read as, and does not look at other parts. -/
theorem readConnectivity_eq_ok_iff :
    (readConnectivity parts).result = .ok (connections, symbols) ↔ AreReadAs parts connections symbols := by
  induction parts generalizing connections symbols with
  | nil => simp [readConnectivity, AreReadAs, eq_comm]
  | cons part parts ih =>
      rw [readConnectivity]
      by_cases connection : part.name = "connection"
      · rw [if_pos connection, areReadAs_connection connection]
        simp only [Traced.result_bind_eq_ok, Traced.result_ofExcept, Traced.result_pure, Prod.exists, ih,
          Except.ok.injEq, Prod.mk.injEq]
        grind
      · rw [if_neg connection]
        by_cases symbol : part.name = "symbols"
        · rw [if_pos symbol, areReadAs_symbol symbol]
          simp only [Traced.result_bind_eq_ok, Traced.result_ofExcept, Traced.result_pure, Prod.exists, ih,
            Except.ok.injEq, Prod.mk.injEq]
          grind
        · rw [if_neg symbol, Traced.result_bind_of_ok (Traced.result_warn _), areReadAs_ignored connection symbol]
          exact ih

/-- What is read is canonical, whatever else stands among the parts. -/
theorem AreReadAs.isCanonical (h : AreReadAs parts connections symbols) :
    (∀ c ∈ connections, c.IsCanonical) ∧ ∀ s ∈ symbols, s.IsCanonical := by
  have hc : List.Forall₂ (fun c (part : Xml.Element) => c.IsCanonical ∧ Connection.ofText part.text = .ok c)
      connections _ :=
    .flip (h.1.imp fun _ _ read => ⟨Connection.isCanonical_of_ofText read, read⟩)
  have hs : List.Forall₂ (fun s (part : Xml.Element) => s.IsCanonical ∧ LayerSymbol.ofText part.text = .ok s)
      symbols _ :=
    .flip (h.2.imp fun _ _ read => ⟨LayerSymbol.isCanonical_of_ofText read, read⟩)
  exact ⟨((List.forall₂_and_left _ _).1 hc).1, ((List.forall₂_and_left _ _).1 hs).1⟩

theorem filter_written (connections : List Connection) (symbols : List LayerSymbol) :
    let parts := (connectivityElement connections symbols).children
    parts.filter (·.name = "connection") = connections.map (fun c => .ofText "connection" c.toText) ∧
      parts.filter (·.name = "symbols") = symbols.map fun s => .ofText "symbols" s.toText := by
  simp [connectivityElement, List.filter_map, Function.comp_def]

/-- A written component is read back exactly when its parts are canonical. -/
theorem areReadAs_written :
    AreReadAs (connectivityElement connections symbols).children connections symbols ↔
      (∀ c ∈ connections, c.IsCanonical) ∧ ∀ s ∈ symbols, s.IsCanonical := by
  obtain ⟨hc, hs⟩ := filter_written connections symbols
  rw [AreReadAs, hc, hs, List.forall₂_map_left_iff, List.forall₂_map_left_iff, List.forall₂_same, List.forall₂_same]
  simp only [Xml.Element.text_ofText, Connection.ofText_toText_iff, LayerSymbol.ofText_toText_iff]

end Codec

theorem Codecs.decode_connectivity_iff {block : Xml.Element} {c : Component}
    (tag : block.name = Component.connectivityName) :
    (builtin.decode block).result = .ok c ↔
      ∃ connections symbols, Codec.AreReadAs block.children connections symbols ∧
        c = .connectivity connections symbols := by
  have codec : builtin.find? block.name = some .connectivity := by
    rw [tag]
    rfl
  rw [decode, codec]
  constructor
  · intro h
    obtain ⟨⟨connections, symbols⟩, read, eq⟩ := Traced.result_bind_eq_ok.1 h
    have parts := Codec.readConnectivity_eq_ok_iff.1 (Traced.mapError_eq_ok.1 read)
    exact ⟨connections, symbols, parts, (Except.ok.inj eq).symm⟩
  · rintro ⟨connections, symbols, parts, rfl⟩
    have read := Codec.readConnectivity_eq_ok_iff.2 parts
    exact Traced.result_bind_eq_ok.2 ⟨_, Traced.mapError_eq_ok.2 read, rfl⟩

theorem Codecs.decode_written_iff {connections : List Connection} {symbols : List LayerSymbol} :
    (builtin.decode (Codec.connectivityElement connections symbols)).result = .ok (.connectivity connections symbols) ↔
      (∀ c ∈ connections, c.IsCanonical) ∧ ∀ s ∈ symbols, s.IsCanonical := by
  have tag : (Codec.connectivityElement connections symbols).name = Component.connectivityName := rfl
  rw [decode_connectivity_iff tag, ← Codec.areReadAs_written]
  constructor
  · rintro ⟨_, _, parts, eq⟩
    cases eq
    exact parts
  · intro parts
    exact ⟨_, _, parts, rfl⟩

/-! ## Blocks -/

namespace Component

/-- The style and the codecs give the component back: its parts are canonical, and a block without a codec
survives. -/
def Portable (style : Xml.Style) : Component → Prop
  | .connectivity connections symbols => (∀ c ∈ connections, c.IsCanonical) ∧ ∀ s ∈ symbols, s.IsCanonical
  | .view25 _ => True
  | .verbatim block => Codecs.builtin.isRegistered block.name = false ∧ block.Survives style
  | .foreign .. => False

instance (style : Xml.Style) : DecidablePred (Portable style)
  | .connectivity .. => inferInstanceAs (Decidable (_ ∧ _))
  | .view25 _ => inferInstanceAs (Decidable True)
  | .verbatim _ => inferInstanceAs (Decidable (_ ∧ _))
  | .foreign .. => inferInstanceAs (Decidable False)

/-- The block of a component that has one. -/
def block : Component → Xml.Element
  | .connectivity connections symbols => Codec.connectivityElement connections symbols
  | .view25 source => .ofChildren view25Name [.ofText "src" source]
  | .verbatim block => block
  | .foreign name _ => .ofChildren name []

variable {style : Xml.Style} {c : Component}

theorem name_block (c : Component) : c.block.name = c.name := by
  cases c <;> rfl

theorem Portable.of_pretty (h : c.Portable .pretty) : c.Portable style := by
  cases c with
  | connectivity => exact h
  | view25 => exact h
  | verbatim block => exact ⟨h.1, h.2.of_pretty⟩
  | foreign => exact h

theorem Portable.encode_eq (h : c.Portable style) : Codecs.builtin.encode c = .ok c.block := by
  cases c with
  | foreign => cases h
  | _ => rfl

theorem Portable.survives_block (h : c.Portable style) : c.block.Survives style := by
  cases c with
  | connectivity =>
      apply Xml.Element.survives_ofChildren (by decide)
      intro part hp
      rcases List.mem_append.1 hp with hp | hp
      · obtain ⟨c, -, rfl⟩ := List.mem_map.1 hp
        exact Xml.Element.survives_ofText (by decide) _
      · obtain ⟨s, -, rfl⟩ := List.mem_map.1 hp
        exact Xml.Element.survives_ofText (by decide) _
  | view25 source =>
      apply Xml.Element.survives_ofChildren (by decide)
      intro part hp
      obtain rfl := List.mem_singleton.1 hp
      exact Xml.Element.survives_ofText (by decide) _
  | verbatim => exact h.2
  | foreign => cases h

theorem Portable.decode_block (h : c.Portable style) : (Codecs.builtin.decode c.block).result = .ok c := by
  cases c with
  | connectivity => exact Codecs.decode_written_iff.2 h
  | view25 => rfl
  | verbatim block =>
      have unknown := h.1
      have codec : Codecs.builtin.find? block.name = none := by
        rwa [Codecs.isRegistered, Option.isSome_eq_false_iff, Option.isNone_iff_eq_none] at unknown
      simp only [Component.block, Codecs.decode, codec]
      rfl
  | foreign => cases h

end Component

/-! ## Written and read again -/

/-- Connections and symbols are read back from their texts exactly when they are canonical, with no blank at either end
of a part, and only canonical ones are read. So a connectivity component is read back from its block exactly when its
connections and symbols are canonical, and one that was read, in the order of the block, is always read back. -/
theorem Codecs.reread_iff_canonical :
    (∀ part, Text.IsTrimmed part ↔
      (∀ b ∈ part.toList.head?, ¬Text.isBlank b) ∧ ∀ b ∈ part.toList.getLast?, ¬Text.isBlank b) ∧
      (∀ c : Connection, Connection.ofText c.toText = .ok c ↔ c.IsCanonical) ∧
      (∀ s : LayerSymbol, LayerSymbol.ofText s.toText = .ok s ↔ s.IsCanonical) ∧
      (∀ text c, Connection.ofText text = .ok c → c.IsCanonical) ∧
      (∀ text s, LayerSymbol.ofText text = .ok s → s.IsCanonical) ∧
      (∀ connections symbols, ∃ block, builtin.encode (.connectivity connections symbols) = .ok block ∧
        ((builtin.decode block).result = .ok (.connectivity connections symbols) ↔
          (∀ c ∈ connections, c.IsCanonical) ∧ ∀ s ∈ symbols, s.IsCanonical)) ∧
      ∀ block c, block.name = Component.connectivityName → (builtin.decode block).result = .ok c →
        ∃ connections symbols written, c = .connectivity connections symbols ∧
          Codec.AreReadAs block.children connections symbols ∧
          builtin.encode c = .ok written ∧ (builtin.decode written).result = .ok c := by
  refine ⟨fun _ => Text.isTrimmed_iff, fun _ => Connection.ofText_toText_iff, fun _ => LayerSymbol.ofText_toText_iff,
    fun _ _ => Connection.isCanonical_of_ofText, fun _ _ => LayerSymbol.isCanonical_of_ofText,
    fun _ _ => ⟨_, rfl, decode_written_iff⟩, ?_⟩
  intro block c tag read
  obtain ⟨connections, symbols, parts, rfl⟩ := (decode_connectivity_iff tag).1 read
  have again := decode_written_iff.2 parts.isCanonical
  exact ⟨connections, symbols, _, rfl, parts, rfl, again⟩

/-- A comma inside of a layer makes another connection of the text; what is read from a block is read back. -/
theorem Codecs.reread_iff_canonical_metal :
    let fused : Connection := ⟨"m1,v1", none, "m2"⟩
    let block : Xml.Element := .ofChildren "connectivity"
      [.ofText "symbols" "diff = 1/0=2/0 ", .ofText "note" "m1,,m2", .ofText "connection" " m1,\tv1 ,m2"]
    let read : Component := .connectivity [⟨"m1", some "v1", "m2"⟩] [⟨"diff", "1/0=2/0"⟩]
    Connection.ofText fused.toText ≠ .ok fused ∧ (builtin.decode block).result = .ok read ∧
      ∃ written, builtin.encode read = .ok written ∧ (builtin.decode written).result = .ok read := by
  intro fused block read
  obtain ⟨-, connection, -, -, -, -, component⟩ := reread_iff_canonical
  have decoded : (builtin.decode block).result = .ok read := by rfl
  have joined : ¬fused.IsCanonical := by decide
  obtain ⟨_, _, written, -, -, encoded, again⟩ := component block read rfl decoded
  exact ⟨fun same => joined ((connection fused).1 same), decoded, written, encoded, again⟩

end LayoutTech
