import Mathlib
import QueryShape.Proofs.WriterOutline

/-!
# What the writer leaves as it was

The frame of the walk (`Walk.Framed`) is also one of the writer. From any state of the writer a walk
starts that has fragments of the same ids and names (`Writer.toWalk`), the two go on side by side
(`Writer.nodeMirrors`), and what the walk keeps the writer keeps, too: `walk_frame`.
-/

set_option autoImplicit false

namespace QueryShape

namespace Writer

/-- The fragments are of nodes of the graph, at most one of each. -/
structure Keyed (g : Graph) (table : OrderedMap String Fragment) : Prop where
  nodup : table.keys.Nodup
  ids : ∀ id ∈ table.keys, ∃ j : Fin g.size, id = (g.node j).id

/-- What was there before is there afterwards: the unit of indentation, the path, the fragments in front
of new ones, and the slots of the variables in their places. -/
structure Framed (g : Graph) (t t' : Writer) : Prop where
  unit : t'.indent.unit = t.indent.unit
  path : t'.path = t.path
  fragments : t.fragments <+: t'.fragments
  keyed : Keyed g t'.fragments
  vars : Walk.SlotsKept t.vars t'.vars

/-- A walk that has come as far as the writer. Of its fragments it knows the names only. -/
def toWalk (t : Writer) : Walk where
  path := t.path
  fragments := t.fragments.map fun e => ⟨e.1, e.2.name, e.2.targetType, []⟩
  vars := t.vars
  events := t.events

section
variable {g : Graph} {t t' : Writer} {w' : Walk}

theorem reflects_toWalk (hk : t.fragments.keys.Nodup) :
    Reflects t.indent.unit t.fragments t.toWalk t := by
  have hentry : ∀ e ∈ t.fragments, FragmentOutline.entry t.indent.unit t.fragments
      ⟨e.1, e.2.name, e.2.targetType, []⟩ = e := by
    intro e he
    rw [FragmentOutline.entry, OrderedMap.find?_of_mem hk he]
    rfl
  refine ⟨rfl, rfl, rfl, rfl, ?_, ?_, ?_⟩
  · rw [toWalk, List.map_map]
    exact ((List.map_congr_left hentry).trans (List.map_id' _)).symm
  · intro f hf
    obtain ⟨e, he, rfl⟩ := List.mem_map.1 hf
    rw [hentry e he]
  · intro id hid
    obtain ⟨e, he, rfl⟩ := List.mem_map.1 hid
    exact ⟨_, List.mem_map_of_mem he, rfl⟩

theorem Reflects.keys {unit : String} {base : OrderedMap String Fragment} {w : Walk}
    (h : Reflects unit base w t) : t.fragments.keys = w.fragments.map (·.shapeId) := by
  rw [h.fragments, OrderedMap.keys, List.map_map]
  rfl

theorem Reflects.keyed_iff {unit : String} {base : OrderedMap String Fragment} {w : Walk}
    (h : Reflects unit base w t) : Keyed g t.fragments ↔ Walk.Keyed g w.fragments := by
  constructor
  · intro hk
    refine ⟨h.keys ▸ hk.nodup, fun f hf => hk.ids f.shapeId ?_⟩
    rw [h.keys]
    exact List.mem_map_of_mem hf
  · intro hk
    refine ⟨h.keys ▸ hk.nodup, fun id hid => ?_⟩
    rw [h.keys] at hid
    obtain ⟨f, hf, rfl⟩ := List.mem_map.1 hid
    exact hk.ids f hf

/-- What the walk keeps the writer keeps. -/
theorem Framed.of_walk (hk : Keyed g t.fragments) (hw : Walk.Framed g t.toWalk w')
    (h : Reflects t.indent.unit t.fragments w' t') : Framed g t t' := by
  have hstart := reflects_toWalk hk.nodup
  obtain ⟨new, hnew⟩ := hw.fragments
  refine ⟨h.indent, h.path.trans hw.path, ⟨new.map (·.entry t.indent.unit t.fragments), ?_⟩, ?_, ?_⟩
  · rw [h.fragments, ← hnew, List.map_append, ← hstart.fragments]
  · exact h.keyed_iff.2 (hw.keyed (hstart.keyed_iff.1 hk))
  · rw [h.vars]
    exact hw.vars

theorem Framed.of_mirrors {α : Type} {text : α → String} {walk : Walk.Step α} {write : Step String}
    {r : Except Failure String} (hk : Keyed g t.fragments) (hw : Walk.Keeps (Walk.Framed g) walk)
    (h : MirrorsAt t.indent.unit t.fragments text walk write t.toWalk t)
    (hrun : write.run.run t = (r, t')) : Framed g t t' := by
  have hframed : Walk.Framed g t.toWalk (walk.run.run t.toWalk).2 := hw t.toWalk
  unfold MirrorsAt at h
  rw [hrun] at h
  revert h hframed
  generalize walk.run.run t.toWalk = out
  intro h hframed
  cases h with
  | ok h => exact .of_walk hk hframed h
  | error h => exact .of_walk hk hframed h

end

end Writer

/-- A walk over a node of an extracted graph, in braces or in place of a field, keeps what the walk had
before, and so does the writer wherever the node stands. Both may start in any state in which there is
at most one fragment of each node, and they may fail. -/
theorem walk_frame {κ : Type} [DecidableEq κ] {t : ShapeTable κ} {root : κ} {g : Graph}
    (hx : Graph.extract t root = .ok g) (k : Fin g.size) :
    (∀ w r w', (Walk.group g k).run.run w = (r, w') → Walk.Framed g w w') ∧
      (∀ w r w', (Walk.splice g k).run.run w = (r, w') → Walk.Framed g w w') ∧
      ∀ (inline unionMember : Bool) (level : Nat) (s : Writer) (r : Except Failure String)
        (s' : Writer), Writer.Keyed g s.fragments →
        (Writer.selectionSet g k inline unionMember level).run.run s = (r, s') →
        Writer.Framed g s s' := by
  obtain ⟨hgroup, hsplice⟩ := Walk.framed_node (Graph.arranged_extract hx) k
  refine ⟨?_, ?_, ?_⟩
  · intro w r w' hrun
    have hframed := hgroup w
    rwa [Walk.after, hrun] at hframed
  · intro w r w' hrun
    have hframed := hsplice w
    rwa [Walk.after, hrun] at hframed
  · intro inline unionMember level s r s' hk hrun
    have hreflects := Writer.reflects_toWalk hk.nodup
    have hnode : Writer.NodeMirrors s.indent.unit s.fragments g k := Writer.nodeMirrors k
    by_cases hb : (!inline || unionMember) = true
    · exact .of_mirrors hk hgroup (hnode.group level hb hreflects) hrun
    · obtain ⟨rfl, rfl⟩ : inline = true ∧ unionMember = false := by simpa using hb
      exact .of_mirrors hk hsplice (hnode.splice level hreflects) hrun

/-- An inbox with two uses of mails, whose last field takes the language without a type. -/
def inboxTable : ShapeTable String :=
  ⟨[("mail", ⟨"M", some "Mail", [{ ident := "title", tag := some "title(in: $lang:Lang)" }]⟩),
    ("inbox", ⟨"B", some "Inbox", [{ ident := "first", type := .shape "mail" },
      { ident := "all", type := .list (.shape "mail") },
      { ident := "more", tag := some "more(in: $lang)" }]⟩)]⟩

def inboxGraph : Graph where
  nodes := #[⟨"M", some "Mail",
      [⟨"title", .scalar, [("in", .variable (some "lang") (some "Lang") none)]⟩], false, 2⟩,
    ⟨"B", some "Inbox", [⟨"first", .object (some 0), []⟩, ⟨"all", .object (some 0), []⟩,
      ⟨"more", .scalar, [("in", .variable (some "lang") none none)]⟩], false, 1⟩]
  root := some 1

set_option maxRecDepth 100000 in
theorem extract_inbox : Graph.extract inboxTable "inbox" = .ok inboxGraph := by cbv

/-- A writer that has come to a user, who has used the language before. There is a fragment of inboxes
already. -/
def userWriter : Writer where
  indent := .ofUnit "  "
  path := ["user"]
  fragments := [("B", ⟨"B", "Inbox", "fragment B on Inbox\x7b\n  id\n\x7d"⟩)]
  vars := [⟨⟨"lang", some "Lang", ["user"], none⟩, true⟩]

/-- The writer after an inbox that is a branch of a union, which has failed at its last field. -/
def inboxWriter : Writer where
  indent := (Indent.ofUnit "  ").upTo 3
  path := ["user"]
  fragments := [("B", ⟨"B", "Inbox", "fragment B on Inbox\x7b\n  id\n\x7d"⟩),
    ("M", ⟨"M", "Mail", "fragment M on Mail\x7b\n  title(in: $lang)\n\x7d"⟩)]
  vars := [⟨⟨"lang", some "Lang", ["user", "user/first/title"], none⟩, true⟩]
  events := #[.reusedVariable "lang" ["user", "first", "title"], .registeredFragment "M" "M",
    .spreadFragment "M" "M"]

set_option maxRecDepth 100000 in
theorem run_inbox : (Writer.selectionSet inboxGraph ⟨1, by decide⟩ true true 2).run.run userWriter =
    (.error (.typeConflict "lang" (some "Lang") none ["user", "more"]), inboxWriter) := by cbv

theorem keyed_user : Writer.Keyed inboxGraph userWriter.fragments where
  nodup := by decide
  ids id hid := ⟨⟨1, by decide⟩, List.mem_singleton.1 hid⟩

theorem walk_frame_inbox : Graph.extract inboxTable "inbox" = .ok inboxGraph ∧
    Writer.Keyed inboxGraph userWriter.fragments ∧
    (Writer.selectionSet inboxGraph ⟨1, by decide⟩ true true 2).run.run userWriter =
      (.error (.typeConflict "lang" (some "Lang") none ["user", "more"]), inboxWriter) ∧
    Writer.Framed inboxGraph userWriter inboxWriter :=
  ⟨extract_inbox, keyed_user, run_inbox,
    (walk_frame extract_inbox _).2.2 _ _ _ _ _ _ keyed_user run_inbox⟩

end QueryShape
