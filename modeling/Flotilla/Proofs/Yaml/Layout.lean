import Flotilla.Proofs.Yaml.Word

namespace Flotilla.Yaml

/-- A word that is short enough to stand before its colon. -/
structure IsKeyWord (cs : List Char) : Prop extends IsWord cs where
  short : cs.length + "!!str".length < keyLimit

instance (cs : List Char) : Decidable (IsKeyWord cs) :=
  decidable_of_iff (IsWord cs ∧ cs.length + "!!str".length < keyLimit)
    ⟨fun h => ⟨h.1, h.2⟩, fun h => ⟨h.1, h.2⟩⟩

inductive IsTidy : Value → Prop
  | text {s : String} : IsWord s.toList → IsTidy (.text s)
  | list {ss : List String} : ss ≠ [] → (∀ s ∈ ss, IsWord s.toList) → IsTidy (.list (ss.map .text))
  | map {fs : List (String × Value)} : fs ≠ [] → (fs.map (·.1)).Nodup →
    (∀ f ∈ fs, IsKeyWord f.1.toList) → (∀ f ∈ fs, IsTidy f.2) → IsTidy (.map fs)

/-- What stands on the line of a key or of an item, behind its mark. -/
def behind : Value → List Char
  | .text s => ' ' :: spelled s.toList
  | _ => []

def itemLine (own : Nat) (v : Value) : Line := ⟨own, '-' :: behind v⟩

def keyLine (own : Nat) (k : String) (v : Value) : Line := ⟨own, spelled k.toList ++ ':' :: behind v⟩

mutual

def linesBelow (own : Nat) : Value → List Line
  | .list vs => vs.map (itemLine own)
  | .map fs => fieldLines (own + indentWidth) fs
  | _ => []

def fieldLines (own : Nat) : List (String × Value) → List Line
  | [] => []
  | (k, v) :: r => keyLine own k v :: (linesBelow own v ++ fieldLines own r)

end

def Line.text (l : Line) : List Char := List.replicate l.indent ' ' ++ l.content ++ ['\n']

def textOf (ls : List Line) : List Char := ls.flatMap Line.text

@[simp] theorem textOf_cons (l : Line) (ls : List Line) : textOf (l :: ls) = l.text ++ textOf ls :=
  List.flatMap_cons

@[simp] theorem textOf_append (ls ms : List Line) : textOf (ls ++ ms) = textOf ls ++ textOf ms :=
  List.flatMap_append

namespace Pen

/-- The pen stands in a line, behind more than indicators and gaps. -/
structure IsWithin (p : Pen) : Prop where
  atStart : p.atStart = false
  afterGap : p.afterGap = false

def closed (p : Pen) : List Char := p.text ++ ['\n']

def lineStart (done : List Char) (column : Nat) : Pen :=
  ⟨(done ++ List.replicate column ' ').reverse, column, true, true⟩

/-- A pen behind a key and its colon, at the start of a line otherwise. -/
def keyEnd (done : List Char) (column : Nat) (key : List Char) : Pen :=
  ((lineStart done column).spaced key).attached [':']

def itemEnd (done : List Char) (column : Nat) (item : List Char) : Pen :=
  ((lineStart done column).openMark '-').spaced item

theorem indent_of_isWithin {p : Pen} (within : p.IsWithin) (n : Nat) :
    p.indent n = lineStart p.closed n := by
  cases n <;> simp [indent, newline, write, within.atStart, lineStart, closed, text]

theorem isWithin_spaced (p : Pen) (cs : List Char) : (p.spaced cs).IsWithin := ⟨rfl, rfl⟩

theorem text_spaced_of_isWithin {p : Pen} (within : p.IsWithin) (cs : List Char) :
    (p.spaced cs).text = p.text ++ ' ' :: cs := by
  simp [spaced, within.afterGap, used, write, text]

theorem isWithin_keyEnd (done : List Char) (n : Nat) (cs : List Char) : (keyEnd done n cs).IsWithin :=
  ⟨rfl, rfl⟩

theorem text_keyEnd (done : List Char) (n : Nat) (cs : List Char) :
    (keyEnd done n cs).text = done ++ (List.replicate n ' ' ++ (cs ++ [':'])) := by
  simp [keyEnd, lineStart, spaced, attached, write, used, text]

theorem isWithin_itemEnd (done : List Char) (n : Nat) (cs : List Char) : (itemEnd done n cs).IsWithin :=
  ⟨rfl, rfl⟩

theorem text_itemEnd (done : List Char) (n : Nat) (cs : List Char) :
    (itemEnd done n cs).text = done ++ (List.replicate n ' ' ++ '-' :: ' ' :: cs) := by
  simp [itemEnd, lineStart, openMark, spaced, write, used, text]

end Pen

/-- Behind a key, the value is written on the key's line and on the lines below it. -/
def IsLaidOut (v : Value) : Prop :=
  ∀ own (p : Pen), p.IsWithin → (writeNode .valueOf (some own) (.ofValue v) p).IsWithin ∧
    (writeNode .valueOf (some own) (.ofValue v) p).closed =
      p.text ++ (behind v ++ '\n' :: textOf (linesBelow own v))

theorem isLaidOut_text {s : String} (word : IsWord s.toList) : IsLaidOut (.text s) := by
  intro own p within
  have written : writeNode .valueOf (some own) (.ofValue (.text s)) p = p.spaced (spelled s.toList) :=
    word.writeText_eq false _ p
  rw [written]
  refine ⟨p.isWithin_spaced _, ?_⟩
  rw [Pen.closed, Pen.text_spaced_of_isWithin within]
  simp [behind, linesBelow, textOf]

theorem writeItems_cons {own : Nat} {s : String} (word : IsWord s.toList) (r : List Value) {p : Pen}
    {done : List Char} (start : p.indent own = .lineStart done own) :
    writeItems own (Node.ofValues (.text s :: r)) p = writeItems own (Node.ofValues r)
      (.itemEnd done own (spelled s.toList)) := by
  rw [Node.ofValues, Node.ofValue, writeItems, start, writeNode, writeScalar, word.writeText_eq]
  rfl

theorem textOf_items_cons (own : Nat) (s : String) (vs : List Value) :
    textOf ((Value.text s :: vs).map (itemLine own)) = List.replicate own ' ' ++
      '-' :: ' ' :: (spelled s.toList ++ '\n' :: textOf (vs.map (itemLine own))) := by
  simp [itemLine, behind, Line.text]

theorem writeItems_texts {own : Nat} {s : String} {r : List String}
    (words : ∀ t ∈ s :: r, IsWord t.toList) {p : Pen} {done : List Char}
    (start : p.indent own = .lineStart done own) :
    (writeItems own (Node.ofValues ((s :: r).map .text)) p).IsWithin ∧
      (writeItems own (Node.ofValues ((s :: r).map .text)) p).closed =
        done ++ textOf (((s :: r).map .text).map (itemLine own)) := by
  induction r generalizing s p done with
  | nil =>
    rw [List.map_cons, writeItems_cons (words s List.mem_cons_self) _ start]
    refine ⟨Pen.isWithin_itemEnd _ _ _, ?_⟩
    rw [textOf_items_cons, List.map_nil, Node.ofValues, writeItems, Pen.closed, Pen.text_itemEnd]
    simp [textOf]
  | cons t r ih =>
    obtain ⟨here, others⟩ := List.forall_mem_cons.mp words
    rw [List.map_cons, writeItems_cons here _ start]
    have next := ih others (Pen.indent_of_isWithin (Pen.isWithin_itemEnd done own (spelled s.toList)) own)
    refine ⟨next.1, next.2.trans ?_⟩
    rw [textOf_items_cons, Pen.closed, Pen.text_itemEnd]
    simp

theorem isLaidOut_list {ss : List String} (given : ss ≠ []) (words : ∀ s ∈ ss, IsWord s.toList) :
    IsLaidOut (.list (ss.map .text)) := by
  intro own p within
  obtain ⟨s, r, rfl⟩ := List.exists_cons_of_ne_nil given
  have written : writeNode .valueOf (some own) (.ofValue (.list ((s :: r).map .text))) p =
      writeItems own (Node.ofValues ((s :: r).map .text)) p := by
    simp [Node.ofValue, Node.ofValues, writeNode, within.atStart]
  rw [written]
  have items := writeItems_texts words (Pen.indent_of_isWithin within own)
  refine ⟨items.1, items.2.trans ?_⟩
  simp [Pen.closed, behind, linesBelow]

theorem isSimpleKey_of_isKeyWord {k : String} (key : IsKeyWord k.toList) :
    isSimpleKey (.text k) = true := by
  have given : k.toList.isEmpty = false := List.isEmpty_eq_false_iff.mpr key.ne_nil
  have oneLine : isMultiline k.toList = false := key.toIsWord.any_eq_false fun _ => isBreak_of_isVisible
  have short : k.toList.length + tagWidth (.text k) < keyLimit := key.short
  simp only [isSimpleKey, plainText, given, oneLine, short, Bool.not_false, decide_true, Bool.and_self]

theorem writeFields_cons {own : Nat} {k : String} (key : IsKeyWord k.toList) (v : Value)
    (r : List (String × Value)) {p : Pen} {done : List Char} (start : p.indent own = .lineStart done own) :
    writeFields own (Node.ofValueFields ((k, v) :: r)) p =
      writeFields own (Node.ofValueFields r) (writeNode .valueOf (some own) (.ofValue v)
        (.keyEnd done own (spelled k.toList))) := by
  rw [Node.ofValueFields, writeFields, start]
  simp only [isSimpleKey_of_isKeyWord key, if_true]
  rw [writeScalar, key.toIsWord.writeText_eq]
  rfl

theorem textOf_fieldLines_cons (own : Nat) (f : String × Value) (r : List (String × Value)) :
    textOf (fieldLines own (f :: r)) = List.replicate own ' ' ++ (spelled f.1.toList ++ ':' ::
      (behind f.2 ++ '\n' :: (textOf (linesBelow own f.2) ++ textOf (fieldLines own r)))) := by
  obtain ⟨k, v⟩ := f
  simp [fieldLines, keyLine, Line.text]

theorem writeFields_tidy (own : Nat) {f : String × Value} {r : List (String × Value)}
    (keys : ∀ g ∈ f :: r, IsKeyWord g.1.toList) (values : ∀ g ∈ f :: r, IsLaidOut g.2)
    {p : Pen} {done : List Char} (start : p.indent own = .lineStart done own) :
    (writeFields own (Node.ofValueFields (f :: r)) p).IsWithin ∧
      (writeFields own (Node.ofValueFields (f :: r)) p).closed =
        done ++ textOf (fieldLines own (f :: r)) := by
  induction r generalizing f p done with
  | nil =>
    rw [writeFields_cons (keys f List.mem_cons_self) f.2 [] start]
    have value := values f List.mem_cons_self own _ (Pen.isWithin_keyEnd done own (spelled f.1.toList))
    refine ⟨value.1, value.2.trans ?_⟩
    rw [textOf_fieldLines_cons, Pen.text_keyEnd]
    simp [fieldLines, textOf]
  | cons g r ih =>
    obtain ⟨key, keys⟩ := List.forall_mem_cons.mp keys
    obtain ⟨value, values⟩ := List.forall_mem_cons.mp values
    rw [writeFields_cons key f.2 (g :: r) start]
    have first := value own _ (Pen.isWithin_keyEnd done own (spelled f.1.toList))
    have next := ih keys values (Pen.indent_of_isWithin first.1 own)
    refine ⟨next.1, next.2.trans ?_⟩
    rw [first.2, Pen.text_keyEnd, textOf_fieldLines_cons own f (g :: r)]
    simp

theorem isLaidOut_of_isTidy {v : Value} (tidy : IsTidy v) : IsLaidOut v := by
  induction tidy with
  | text word => exact isLaidOut_text word
  | list given words => exact isLaidOut_list given words
  | @map fs given _ keys _ ih =>
    intro own p within
    obtain ⟨f, r, rfl⟩ := List.exists_cons_of_ne_nil given
    have fields := writeFields_tidy (own + indentWidth) keys ih (Pen.indent_of_isWithin within _)
    refine ⟨fields.1, fields.2.trans ?_⟩
    simp [Pen.closed, behind, linesBelow]

theorem toList_print_map {fs : List (String × Value)} (tidy : IsTidy (.map fs)) :
    (print (.map fs)).toList = textOf (fieldLines 0 fs) := by
  cases tidy with
  | map given _ keys values =>
    obtain ⟨f, r, rfl⟩ := List.exists_cons_of_ne_nil given
    have start : Pen.new.indent 0 = .lineStart [] 0 := rfl
    have fields := writeFields_tidy 0 keys (fun g member => isLaidOut_of_isTidy (values g member)) start
    have whole : print (.map (f :: r)) =
        String.ofList ((writeFields 0 (Node.ofValueFields (f :: r)) .new).indent 0).text := rfl
    rw [whole, Pen.indent_of_isWithin fields.1, fields.2, String.toList_ofList]
    simp [Pen.lineStart, Pen.text]

end Flotilla.Yaml
