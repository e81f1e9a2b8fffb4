import CodeChart.Include.Chart
import CodeChart.Proofs.Flowchart.Label
import CodeChart.Proofs.Text.Lines

/-!
# The lines of an include chart

An include chart is written as subgraphs with files in them, then edges, then clicks.  Its lines can
be read back, and with them what stands in which subgraph.

* `ChartLine`           a line; `ChartLine.text_injective` says that its text tells what it is;
* `Subgraph`, `Sheet`   what is written, and `Sheet.lines`, the lines in their order;
* `Sheet.lines_injective`   the lines tell what is written.
-/

namespace CodeChart

open Mermaid

/-! ## one line -/

/-- files are given by their numbers -/
inductive ChartLine where
  | subgraph (index : Nat) (label : Text)
  | layout
  | file (id : Nat) (label : Text)
  | close
  | edge (source target : Nat)
  | click (id : Nat) (payload : Text)
  deriving DecidableEq, Repr

namespace ChartLine

def subgraphText (index : Nat) (label : Text) : Text :=
  "subgraph G".toList ++ (decimal index ++ (" [\"📁 ".toList ++ (label ++ "\"]".toList)))

def fileText (id : Nat) (label : Text) : Text :=
  "F".toList ++ (decimal id ++ ("[\"".toList ++ (label ++ "\"]:::file;".toList)))

def edgeText (source target : Nat) : Text :=
  "F".toList ++ (decimal source ++ (" --> F".toList ++ (decimal target ++ ";".toList)))

def clickText (id : Nat) (payload : Text) : Text :=
  "click F".toList ++ (decimal id ++ (" call onNodeClick(\"F".toList ++ (decimal id ++
    ("\", \"".toList ++ (payload ++ "\");".toList)))))

def text : ChartLine → Text
  | .subgraph index label => subgraphText index label
  | .layout => "direction TB;".toList
  | .file id label => fileText id label
  | .close => "end".toList
  | .edge source target => edgeText source target
  | .click id payload => clickText id payload

/-- the letter that the text starts with -/
def letter : ChartLine → Char
  | .subgraph _ _ => 's'
  | .layout => 'd'
  | .file _ _ => 'F'
  | .close => 'e'
  | .edge _ _ => 'F'
  | .click _ _ => 'c'

theorem head?_text (l : ChartLine) : l.text.head? = some l.letter := by
  cases l <;> rfl

theorem text_injective : Function.Injective ChartLine.text := by
  intro a b h
  have hletter : a.letter = b.letter := by
    rw [← Option.some.injEq, ← head?_text, ← head?_text, h]
  cases a with
  | subgraph i label =>
    cases b with
    | subgraph j other =>
      obtain ⟨rfl, hrest⟩ := decimal_append_injective rfl rfl (List.append_cancel_left h)
      rw [List.append_cancel_right (List.append_cancel_left hrest)]
    | _ => simp [letter] at hletter
  | layout =>
    cases b with
    | layout => rfl
    | _ => simp [letter] at hletter
  | file i label =>
    cases b with
    | file j other =>
      obtain ⟨rfl, hrest⟩ := decimal_append_injective rfl rfl (List.append_cancel_left h)
      rw [List.append_cancel_right (List.append_cancel_left hrest)]
    | edge s t =>
      obtain ⟨_, hrest⟩ := decimal_append_injective rfl rfl (List.append_cancel_left h)
      have hsign : '[' = ' ' := (List.cons.inj hrest).1
      exact absurd hsign (by decide)
    | _ => simp [letter] at hletter
  | close =>
    cases b with
    | close => rfl
    | _ => simp [letter] at hletter
  | edge s t =>
    cases b with
    | edge s' t' =>
      obtain ⟨rfl, hrest⟩ := decimal_append_injective rfl rfl (List.append_cancel_left h)
      obtain ⟨rfl, _⟩ := decimal_append_injective rfl rfl (List.append_cancel_left hrest)
      rfl
    | file j other =>
      obtain ⟨_, hrest⟩ := decimal_append_injective rfl rfl (List.append_cancel_left h)
      have hsign : ' ' = '[' := (List.cons.inj hrest).1
      exact absurd hsign (by decide)
    | _ => simp [letter] at hletter
  | click i payload =>
    cases b with
    | click j other =>
      obtain ⟨rfl, hrest⟩ := decimal_append_injective rfl rfl (List.append_cancel_left h)
      obtain ⟨_, hpayload⟩ := decimal_append_injective rfl rfl (List.append_cancel_left hrest)
      rw [List.append_cancel_right (List.append_cancel_left hpayload)]
    | _ => simp [letter] at hletter

/-- what stands in a line and was not made by the chart itself -/
def embedded : ChartLine → Text
  | .subgraph _ label => label
  | .file _ label => label
  | .click _ payload => payload
  | _ => []

theorem newline_not_mem_text {l : ChartLine} (h : '\n' ∉ l.embedded) : '\n' ∉ l.text := by
  have hdigits : ∀ n, '\n' ∉ decimal n := not_mem_decimal (by decide)
  cases l with
  | subgraph i label =>
    show '\n' ∉ subgraphText i label
    delta subgraphText
    simp only [List.mem_append, not_or]
    exact ⟨by decide, hdigits i, by decide, h, by decide⟩
  | layout =>
    show '\n' ∉ "direction TB;".toList
    decide
  | file i label =>
    show '\n' ∉ fileText i label
    delta fileText
    simp only [List.mem_append, not_or]
    exact ⟨by decide, hdigits i, by decide, h, by decide⟩
  | close =>
    show '\n' ∉ "end".toList
    decide
  | edge s t =>
    show '\n' ∉ edgeText s t
    delta edgeText
    simp only [List.mem_append, not_or]
    exact ⟨by decide, hdigits s, by decide, hdigits t, by decide⟩
  | click i payload =>
    show '\n' ∉ clickText i payload
    delta clickText
    simp only [List.mem_append, not_or]
    exact ⟨by decide, hdigits i, by decide, hdigits i, by decide, h, by decide⟩

/-! ## the lines that are written -/

theorem text_subgraph (index : Nat) (folder : Text) :
    text (.subgraph index (sanitize (shortFolder folder))) = groupLine index folder := by
  show subgraphText index (sanitize (shortFolder folder)) = _
  delta subgraphText groupLine
  simp only [List.append_assoc]

theorem text_file (k : Nat) (name : Text) :
    text (.file k (sanitize name)) = fileLine (fileId k) name := by
  show fileText k (sanitize name) = _
  delta fileText fileLine fileId quoted
  simp

theorem text_edge (s t : Nat) : text (.edge s t) = arrowLine (fileId s) (fileId t) := by
  show edgeText s t = _
  delta edgeText arrowLine fileId
  simp

theorem text_click (k : Nat) (payload : Text) :
    text (.click k payload) = clickLine (fileId k) payload := by
  show clickText k payload = _
  delta clickText clickLine fileId quoted
  simp

end ChartLine

/-! ## a sheet -/

/-- a label, and the numbers and labels of files -/
structure Subgraph where
  label : Text
  files : List (Nat × Text)
  deriving DecidableEq, Repr

def Subgraph.lines (g : Subgraph) (index : Nat) : List ChartLine :=
  .subgraph index g.label :: .layout :: (g.files.map (fun f => .file f.1 f.2) ++ [.close])

/-- the subgraphs are numbered as they come -/
structure Sheet where
  subgraphs : List Subgraph
  edges : List (Nat × Nat)
  clicks : List (Nat × Text)
  deriving DecidableEq, Repr

/-- the numbers of the files that are declared -/
def Sheet.declared (s : Sheet) : List Nat := s.subgraphs.flatMap fun g => g.files.map Prod.fst

def Sheet.links (s : Sheet) : List ChartLine :=
  s.edges.map (fun e => .edge e.1 e.2) ++ s.clicks.map fun c => .click c.1 c.2

def Sheet.lines (s : Sheet) : List ChartLine :=
  (s.subgraphs.zipIdx.flatMap fun p => p.1.lines p.2) ++ s.links

/-- a line holds no text but a label or what a click hands over -/
theorem Sheet.embedded_of_mem_lines {s : Sheet} {l : ChartLine} (h : l ∈ s.lines) :
    l.embedded = [] ∨
      (∃ g ∈ s.subgraphs, l.embedded = g.label ∨ l.embedded ∈ g.files.map Prod.snd) ∨
      l.embedded ∈ s.clicks.map Prod.snd := by
  rcases List.mem_append.1 h with h | h
  · obtain ⟨⟨g, index⟩, hg, h⟩ := List.mem_flatMap.1 h
    have hg := List.fst_mem_of_mem_zipIdx hg
    rcases List.mem_cons.1 h with rfl | h
    · exact .inr (.inl ⟨g, hg, .inl rfl⟩)
    rcases List.mem_cons.1 h with rfl | h
    · exact .inl rfl
    rcases List.mem_append.1 h with h | h
    · obtain ⟨f, hf, rfl⟩ := List.mem_map.1 h
      exact .inr (.inl ⟨g, hg, .inr (List.mem_map_of_mem hf)⟩)
    · rw [List.mem_singleton.1 h]
      exact .inl rfl
  rcases List.mem_append.1 h with h | h
  · obtain ⟨e, _, rfl⟩ := List.mem_map.1 h
    exact .inl rfl
  · obtain ⟨c, hc, rfl⟩ := List.mem_map.1 h
    exact .inr (.inr (List.mem_map_of_mem hc))

/-! ## reading a sheet back -/

/-- a number and a text of a line, each in its own kind of line -/
def ChartLine.edge? : ChartLine → Option (Nat × Nat)
  | .edge source target => some (source, target)
  | _ => none

def ChartLine.click? : ChartLine → Option (Nat × Text)
  | .click id payload => some (id, payload)
  | _ => none

theorem Sheet.links_injective {s t : Sheet} (h : s.links = t.links) :
    s.edges = t.edges ∧ s.clicks = t.clicks := by
  have hedges : ∀ s : Sheet, s.links.filterMap ChartLine.edge? = s.edges := by
    intro s
    have hedge : (ChartLine.edge? ∘ fun e : Nat × Nat => .edge e.1 e.2) = some := rfl
    have hclick : (ChartLine.edge? ∘ fun c : Nat × Text => .click c.1 c.2) = fun _ => none := rfl
    rw [Sheet.links, List.filterMap_append, List.filterMap_map, List.filterMap_map, hedge, hclick,
      List.filterMap_some, List.filterMap_none, List.append_nil]
  have hclicks : ∀ s : Sheet, s.links.filterMap ChartLine.click? = s.clicks := by
    intro s
    have hedge : (ChartLine.click? ∘ fun e : Nat × Nat => .edge e.1 e.2) = fun _ => none := rfl
    have hclick : (ChartLine.click? ∘ fun c : Nat × Text => .click c.1 c.2) = some := rfl
    rw [Sheet.links, List.filterMap_append, List.filterMap_map, List.filterMap_map, hedge, hclick,
      List.filterMap_some, List.filterMap_none, List.nil_append]
  constructor
  · rw [← hedges s, h, hedges t]
  · rw [← hclicks s, h, hclicks t]

/-- no subgraph opens after the last one -/
theorem Sheet.subgraph_not_mem_links (s : Sheet) (index : Nat) (label : Text) :
    .subgraph index label ∉ s.links := by
  intro h
  rcases List.mem_append.1 h with h | h
  · obtain ⟨e, _, he⟩ := List.mem_map.1 h
    cases he
  · obtain ⟨c, _, hc⟩ := List.mem_map.1 h
    cases hc

theorem Subgraph.lines_append_injective {g g' : Subgraph} {index : Nat}
    {more more' : List ChartLine} (h : g.lines index ++ more = g'.lines index ++ more') :
    g = g' ∧ more = more' := by
  have hlines : ∀ (g : Subgraph) (more : List ChartLine), g.lines index ++ more
      = .subgraph index g.label :: .layout ::
        (g.files.map (fun f => .file f.1 f.2) ++ .close :: more) := by
    intro g more
    rw [Subgraph.lines, List.cons_append, List.cons_append, List.append_assoc]
    rfl
  have hclose : ∀ g : Subgraph, ChartLine.close ∉ g.files.map fun f => .file f.1 f.2 := by
    intro g hmem
    obtain ⟨f, _, hf⟩ := List.mem_map.1 hmem
    cases hf
  have hfile : Function.Injective fun f : Nat × Text => ChartLine.file f.1 f.2 := by
    intro f f' hff
    obtain ⟨hid, hlabel⟩ := ChartLine.file.inj hff
    exact Prod.ext hid hlabel
  rw [hlines, hlines] at h
  obtain ⟨hlabel, hrest⟩ := List.cons.inj h
  obtain ⟨hfiles, hmore⟩ := append_cons_injective (hclose g) (hclose g') (List.cons.inj hrest).2
  obtain ⟨label, files⟩ := g
  obtain ⟨label', files'⟩ := g'
  obtain rfl := (ChartLine.subgraph.inj hlabel).2
  obtain rfl := List.map_injective_iff.2 hfile hfiles
  exact ⟨rfl, hmore⟩

theorem Sheet.lines_injective : Function.Injective Sheet.lines := by
  intro s t h
  have hblocks : ∀ (gs gs' : List Subgraph) (k : Nat),
      ((gs.zipIdx k).flatMap fun p => p.1.lines p.2) ++ s.links
        = ((gs'.zipIdx k).flatMap fun p => p.1.lines p.2) ++ t.links →
      gs = gs' ∧ s.links = t.links := by
    intro gs
    induction gs with
    | nil =>
      intro gs' k hlines
      cases gs' with
      | nil => exact ⟨rfl, hlines⟩
      | cons g' gs' =>
        have hmem : .subgraph k g'.label ∈ s.links := by
          have hhead := congrArg List.head? hlines
          exact List.mem_of_head? hhead
        exact absurd hmem (s.subgraph_not_mem_links k g'.label)
    | cons g gs ih =>
      intro gs' k hlines
      cases gs' with
      | nil =>
        have hmem : .subgraph k g.label ∈ t.links := by
          have hhead := congrArg List.head? hlines
          exact List.mem_of_head? hhead.symm
        exact absurd hmem (t.subgraph_not_mem_links k g.label)
      | cons g' gs' =>
        rw [List.zipIdx_cons, List.zipIdx_cons, List.flatMap_cons, List.flatMap_cons,
          List.append_assoc, List.append_assoc] at hlines
        obtain ⟨rfl, hmore⟩ := Subgraph.lines_append_injective hlines
        obtain ⟨rfl, hlinks⟩ := ih gs' (k + 1) hmore
        exact ⟨rfl, hlinks⟩
  obtain ⟨hsubgraphs, hlinks⟩ := hblocks s.subgraphs t.subgraphs 0 h
  obtain ⟨hedges, hclicks⟩ := Sheet.links_injective hlinks
  obtain ⟨subgraphs, edges, clicks⟩ := s
  obtain ⟨subgraphs', edges', clicks'⟩ := t
  obtain rfl := hsubgraphs
  obtain rfl := hedges
  obtain rfl := hclicks
  rfl

end CodeChart
