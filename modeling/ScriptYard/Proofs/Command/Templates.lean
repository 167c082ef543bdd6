import ScriptYard.Command.Perform
import ScriptYard.Proofs.Document.Entries
import ScriptYard.Proofs.Yaml.Leaves

/-!
# Scripts after templates

The text of a template is the text of an outline in which the name stands as it is: as a scalar of its own, and between
parts of a path (`ScriptTemplate.text_outline`). A reader makes of it what the outline says, provided each scalar is
read for itself, and the only ones that depend on the name are these. So the condition is one on the name alone
(`ScriptTemplate.Takes`): it is one that can stand in a block without quotes. No condition is needed on its type, for an
id is a text whatever it looks like, and a path has a slash in it, which no number has.

With such a name the script is the one that the template stands for (`ScriptTemplate.script`), under that name, and
nothing in it is an error to a validator that knows the capabilities of the program
(`ScriptTemplate.script_goes_by_its_name`). The condition cannot be left out: behind a blank and a number sign the name
is taken for a comment (`ScriptTemplate.build_two_is_cut_short`).
-/

namespace ScriptYard

open Yaml Yaml.Scanner

namespace ScriptTemplate

/-! ### Outlines -/

/-- A scalar without quotes. -/
def word (cs : List Char) : Outline := .leaf (fun _ => cs) false (.scalar cs .plain)

/-- A text in quotes. -/
def quoted (cs : List Char) : Outline := .leaf (fun _ => doubleQuoted cs) false (.scalar cs .quoted)

def list (items : List (List Char)) : Outline := .leaf (fun _ => '[' :: listText items) false (.list items)

def field (name : String) (o : Outline) : (ℕ → Name) × Outline := (plainName name.toList, o)

/-- A call of a program through the shell. -/
def callOutline (args : List String) : Outline := .map [
  field "type" (word "plugin_call".toList),
  field "capability" (word "shell".toList),
  field "action" (word "exec".toList),
  field "params" (.map [
    field "command" (word "adb".toList),
    field "args" (list (args.map String.toList))])]

/-- A search for a picture that ends a loop. -/
def searchOutline (path : List Char) : Outline := .map [
  field "type" (word "condition".toList),
  field "condition_type" (word "template_match".toList),
  field "template_path" (word path),
  field "input_image" (word "$screen".toList),
  field "threshold" (word "0.8".toList),
  field "break_on_true" (word "true".toList),
  field "on_true" (.seq [callOutline ["shell", "input", "tap", "$match_x", "$match_y"]])]

/-- A loop that takes pictures of a screen until a search ends it. -/
def loopOutline (path : List Char) : Outline := .map [
  field "type" (word "loop".toList),
  field "interval" (word "2.0".toList),
  field "max_iterations" (word "30".toList),
  field "actions" (.seq [
    callOutline ["shell", "screencap", "-p", "$device_screen"],
    callOutline ["pull", "$device_screen", "$screen"],
    searchOutline path])]

/-- Where pictures are taken. -/
def picturesOutline (device screen : List Char) : Outline :=
  .map [field "device_screen" (word device), field "screen" (word screen)]

/-- A note that the loop has ended. -/
def finishOutline : Outline := .map [
  field "type" (word "set_variable".toList),
  field "name" (word "finished".toList),
  field "value" (word "true".toList)]

def outline (name : List Char) : ScriptTemplate → Outline
  | .basic => .map [
    field "id" (word name),
    field "name" (word name),
    field "description" (word "Polls for a button and taps it once found".toList),
    field "priority" (word "0".toList),
    field "max_retries" (word "3".toList),
    field "variables" (picturesOutline ("/sdcard/".toList ++ (name ++ "_screen.png".toList))
      ("/tmp/".toList ++ (name ++ "_screen.png".toList))),
    field "actions" (.seq [
      loopOutline ("templates/".toList ++ (name ++ "_button.png".toList)),
      finishOutline])]
  | .exception => .map [
    field "id" (word name),
    field "name" (word name),
    field "description"
      (word "Recovery script queued by the watchdog when a script in the group stalls".toList),
    field "max_retries" (word "1".toList),
    field "actions" (.seq [
      callOutline ["shell", "input", "keyevent", "KEYCODE_BACK"],
      .map [field "type" (word "wait".toList), field "duration" (word "2.0".toList)],
      callOutline ["shell", "input", "keyevent", "KEYCODE_HOME"]])]
  | .startup => .map [
    field "id" (word name),
    field "name" (word name),
    field "description" (word "Launches the target application and waits for it to settle".toList),
    field "autostart" (word "true".toList),
    field "priority" (.leaf (fun _ => "10".toList ++
      '\n' :: '#' :: " exception_script: <id of a script created with --template exception>".toList)
      false (.scalar "10".toList .plain)),
    field "variables" (.map [field "package" (word "com.example.app".toList)]),
    field "actions" (.seq [
      callOutline ["shell", "monkey", "-p", "$package", "1"],
      .map [field "type" (word "wait".toList), field "duration" (word "5.0".toList)],
      .map [
        field "type" (word "condition".toList),
        field "condition_type" (word "variable_compare".toList),
        field "variable" (word "package".toList),
        field "operator" (quoted "!=".toList),
        field "value" (quoted []),
        field "on_false" (.seq [.map [field "type" (word "restart".toList)]])]])]

/-! ### Scripts -/

/-- The call of a program through the shell. -/
def callAction (args : List String) : Action :=
  .call ⟨"shell", "exec", [("args", .array (args.map .string)), ("command", .string "adb")], none⟩ none

theorem canonical_two : Finite64.Canonical (twoTo 52) (-51) := by decide

/-- The number two. -/
def two : Finite64 := ⟨false, twoTo 52, -51, canonical_two⟩

/-- The number five. -/
def five : Finite64 := ⟨false, 5 * twoTo 50, -50, by decide⟩

/-- A loop that takes pictures of a screen until a search ends it. -/
def loopAction (path : String) : Action :=
  .loop two 30 [
    callAction ["shell", "screencap", "-p", "$device_screen"],
    callAction ["pull", "$device_screen", "$screen"],
    .condition (.templateMatch path Action.defaultThreshold (some "$screen"))
      [callAction ["shell", "input", "tap", "$match_x", "$match_y"]] [] true none] none

/-- The script that a template stands for. -/
def script (name : String) : ScriptTemplate → ScriptDefinition
  | .basic => {
    id := name, name := name, description := some "Polls for a button and taps it once found"
    priority := some 0, maxRetries := some 3
    vars := [("device_screen", .string ("/sdcard/" ++ name ++ "_screen.png")),
      ("screen", .string ("/tmp/" ++ name ++ "_screen.png"))]
    actions := [
      loopAction ("templates/" ++ name ++ "_button.png"),
      .setVariable "finished" (.bool true) none] }
  | .exception => {
    id := name, name := name
    description := some "Recovery script queued by the watchdog when a script in the group stalls"
    maxRetries := some 1
    actions := [
      callAction ["shell", "input", "keyevent", "KEYCODE_BACK"],
      .wait two none,
      callAction ["shell", "input", "keyevent", "KEYCODE_HOME"]] }
  | .startup => {
    id := name, name := name, description := some "Launches the target application and waits for it to settle"
    autostart := true, priority := some 10
    vars := [("package", .string "com.example.app")]
    actions := [
      callAction ["shell", "monkey", "-p", "$package", "1"],
      .wait five none,
      .condition (.variableCompare "package" .ne (.string "")) [] [.restart none] false none] }

/-! ### Texts -/

/-- A character that stands for itself between quotes. -/
def isRaw (c : Char) : Bool := isPrintable c && !isBreak c && c != '"' && c != '\\'

theorem doubleQuoted_of_raw {cs : List Char} (h : cs.all isRaw = true) : doubleQuoted cs = '"' :: (cs ++ ['"']) := by
  have h_chars : cs.flatMap Page.doubleChar = cs := by
    induction cs with
    | nil => rfl
    | cons x cs ih =>
      rw [List.all_cons, Bool.and_eq_true] at h
      have h_x : Page.doubleChar x = [x] := by
        obtain ⟨h_x, -⟩ := h
        simp only [isRaw, Bool.and_eq_true, Bool.not_eq_true', bne_iff_ne, ne_eq] at h_x
        simp [Page.doubleChar, h_x]
      rw [List.flatMap_cons, h_x, ih h.2]
      rfl
  rw [doubleQuoted, h_chars]

theorem toList_foldl (ls : List String) (s : String) :
    (ls.foldl (· ++ ·) s).toList = s.toList ++ ls.flatMap String.toList := by
  induction ls generalizing s with
  | nil => simp
  | cons l ls ih => simp [ih]

/-- The text of a template, character by character. -/
theorem text_eq (t : ScriptTemplate) (name : String) :
    t.text name = String.ofList ((t.lines name).flatMap fun l => l.toList ++ ['\n']) := by
  rw [← String.toList_inj, String.toList_ofList, text, String.join, toList_foldl, List.flatMap_map]
  simp

set_option maxRecDepth 4000 in
/-- The lines of a template are those of its outline. -/
theorem lines_outline (name : String) (t : ScriptTemplate) :
    ((t.lines name).flatMap fun l => l.toList ++ ['\n']) = ((t.outline name.toList).top 2 true).text := by
  cases t <;>
    simp only [lines, outline, loopOutline, picturesOutline, finishOutline, searchOutline, callOutline, field, word,
      quoted, list, List.flatMap_cons, List.flatMap_nil, List.map_cons, List.map_nil, String.toList_append]
  all_goals
    -- every literal is spelled out before anything is compared
    repeat rw [String.toList_ofList]
    simp [plainName, Outline.top, Outline.place, Outline.placeItems, Outline.placeFields, Layout.text, Layout.itemsText,
      Layout.fieldsText, Name.marked, leadText, gapBehind, listText, doubleQuoted_of_raw,
      show doubleQuoted [] = ['"', '"'] from rfl, isRaw, isPrintable, isBreak]

/-- **The text of a template is that of its outline.** -/
theorem text_outline (t : ScriptTemplate) (name : String) :
    t.text name = String.ofList ((t.outline name.toList).top 2 true).text := by
  rw [text_eq, lines_outline]

/-! ### Names -/

/-- A name that a template takes up as it is: a text on one line that stands for itself without quotes. -/
structure Takes (name : String) : Prop where
  plain : IsPlain name.toList
  allowed : ∀ x ∈ name.toList, isAllowed x = true
  unmarked : name.toList.head? ≠ some '\ufeff'
  filled : isBlankText name = false

/-- Words in printable characters are taken up, if the writer of documents would not put them in quotes either. -/
theorem Takes.of_allowsPlain {name : String} (h : allowsPlain name.toList = true)
    (h_filled : isBlankText name = false) : Takes name where
  plain := by
    refine isPlain_of_allowsPlain (fun h_nil => ?_) h
    rw [isBlankText, h_nil] at h_filled
    cases h_filled
  allowed _ h_x := isAllowed_of_isPrintable (isPrintable_of_allowsPlain h h_x)
  unmarked := head_of_allowsPlain h
  filled := h_filled

/-- A text of a few characters that is written without quotes. -/
def isWord (cs : List Char) : Bool := !cs.isEmpty && cs.length ≤ 1024 && allowsPlain cs

theorem nameSound_field {name : String} {cs : List Char} (h_name : name = String.ofList cs) (h : isWord cs = true) :
    NameSound (plainName name.toList) := by
  simp only [isWord, Bool.and_eq_true, Bool.not_eq_true', List.isEmpty_eq_false_iff, decide_eq_true_eq] at h
  rw [h_name, String.toList_ofList]
  exact .plain h.1.1 h.2 h.1.2

theorem sound_word {s : String} {cs : List Char} (h_s : s = String.ofList cs) (h : isWord cs = true) :
    (word s.toList).Sound true := by
  simp only [isWord, Bool.and_eq_true, Bool.not_eq_true', List.isEmpty_eq_false_iff] at h
  rw [h_s, String.toList_ofList]
  exact LeafSound.plain (isPlain_of_allowsPlain h.1.1 h.2) (head_of_allowsPlain h.2)
    fun x h_x => isAllowed_of_isPrintable (isPrintable_of_allowsPlain h.2 h_x)

theorem Takes.sound_word {name : String} (h : Takes name) : (word name.toList).Sound true :=
  LeafSound.plain h.plain h.unmarked h.allowed

/-- A character of a path that means nothing by itself. -/
def isPathChar (c : Char) : Bool := c != ':' && c != '#' && !isGap c && isAllowed c

/-- A name that a template takes up may stand between parts of a path. -/
theorem Takes.sound_path {name front back : String} (h : Takes name) {c : Char} {cs : List Char} {ds : List Char}
    (h_cs : front = String.ofList (c :: cs)) (h_ds : back = String.ofList ds) (h_front : (c :: cs).all isPathChar = true)
    (h_back : ds.all isPathChar = true) (h_back_ne : ds ≠ [])
    (h_c : "#,[]\x7b\x7d&*!|>'\"%@`:?-\ufeff".toList.contains c = false) :
    (word (front.toList ++ (name.toList ++ back.toList))).Sound true := by
  rw [h_cs, h_ds, String.toList_ofList, String.toList_ofList]
  -- what stands around the name are characters of paths, which mean nothing in the notation
  have h_chars : ∀ {cs : List Char}, cs.all isPathChar = true →
      ∀ x ∈ cs, x ≠ ':' ∧ x ≠ '#' ∧ isGap x = false ∧ isAllowed x = true := by
    intro cs h_cs x h_x
    simpa [isPathChar, and_assoc] using List.all_eq_true.mp h_cs x h_x
  have h_plain : IsPlain (c :: cs ++ (name.toList ++ ds)) := by
    refine h.plain.between (fun x h_x => ?_) (fun x h_x => ?_) h_back_ne ⟨c, cs, rfl, fun next => ?_⟩
    · exact ⟨(h_chars h_front x h_x).1, (h_chars h_front x h_x).2.1, (h_chars h_front x h_x).2.2.1⟩
    · exact ⟨(h_chars h_back x h_x).1, (h_chars h_back x h_x).2.1, (h_chars h_back x h_x).2.2.1⟩
    · have h_split : "#,[]\x7b\x7d&*!|>'\"%@`:?-\ufeff".toList =
          "#,[]\x7b\x7d&*!|>'\"%@`".toList ++ [':', '?', '-', '\ufeff'] := rfl
      rw [h_split] at h_c
      simp at h_c
      simp [isOpeningIndicator, h_c]
  refine LeafSound.plain h_plain (fun h_head => ?_) fun x h_x => ?_
  · obtain rfl : c = '\ufeff' := Option.some.inj h_head
    exact absurd h_c (by decide)
  · obtain h_x | h_x := List.mem_append.mp h_x
    · exact (h_chars h_front x h_x).2.2.2
    · exact (List.mem_append.mp h_x).elim (h.allowed x) fun h_x => (h_chars h_back x h_x).2.2.2

/-! ### Sound outlines -/

theorem sound_call (args : List String) : (callOutline args).Sound true := by
  simp only [callOutline, field, Outline.Sound, Outline.FieldsSound, ne_eq, List.cons_ne_nil, not_false_eq_true,
    true_and, and_true]
  and_intros
  all_goals first
    | exact nameSound_field rfl (by decide)
    | exact sound_word rfl (by decide)
    | exact LeafSound.list _

theorem sound_search {path : List Char} (h : (word path).Sound true) : (searchOutline path).Sound true := by
  have h_calls := sound_call
  simp only [searchOutline, field, Outline.Sound, Outline.FieldsSound, Outline.ItemsSound, ne_eq, List.cons_ne_nil,
    not_false_eq_true, true_and, and_true]
  -- the parts of a call are not looked at again
  generalize callOutline = call at h_calls ⊢
  and_intros
  all_goals first
    | exact h
    | exact nameSound_field rfl (by decide)
    | exact sound_word rfl (by decide)
    | exact h_calls _

theorem sound_loop {path : List Char} (h : (word path).Sound true) : (loopOutline path).Sound true := by
  have h_calls := sound_call
  have h_search := sound_search h
  simp only [loopOutline, field, Outline.Sound, Outline.FieldsSound, Outline.ItemsSound, ne_eq, List.cons_ne_nil,
    not_false_eq_true, true_and, and_true]
  generalize callOutline = call at h_calls ⊢
  generalize searchOutline = search at h_search ⊢
  and_intros
  all_goals first
    | exact h_search
    | exact nameSound_field rfl (by decide)
    | exact sound_word rfl (by decide)
    | exact h_calls _

/-- With a name that it takes up, all parts of a template are read for themselves. -/
theorem sound_outline {name : String} (h : Takes name) (t : ScriptTemplate) : (t.outline name.toList).Sound true := by
  have h_id := h.sound_word
  have h_button : (word ("templates/".toList ++ (name.toList ++ "_button.png".toList))).Sound true :=
    h.sound_path rfl rfl (by decide) (by decide) (by decide) (by decide)
  have h_loop := sound_loop h_button
  have h_screen : (word ("/tmp/".toList ++ (name.toList ++ "_screen.png".toList))).Sound true :=
    h.sound_path rfl rfl (by decide) (by decide) (by decide) (by decide)
  have h_device : (word ("/sdcard/".toList ++ (name.toList ++ "_screen.png".toList))).Sound true :=
    h.sound_path rfl rfl (by decide) (by decide) (by decide) (by decide)
  -- the only scalar with a comment behind it
  have h_remark : LeafSound true (fun _ => "10".toList ++ '\n' :: '#' ::
      " exception_script: <id of a script created with --template exception>".toList) false
      (.scalar "10".toList .plain) := by
    rw [String.toList_ofList, String.toList_ofList]
    exact .remarked (isPlain_of_allowsPlain (by decide) (by decide)) (by decide) (List.all_eq_true.mp (by decide))
      fun x h_x => Bool.eq_false_iff.mpr (List.any_eq_false.mp (by decide) x h_x)
  have h_calls := sound_call
  cases t <;> simp only [outline, picturesOutline, finishOutline, field, Outline.Sound, Outline.FieldsSound,
    Outline.ItemsSound, ne_eq, List.cons_ne_nil, not_false_eq_true, true_and, and_true]
  all_goals
    generalize callOutline = call at h_calls ⊢
    generalize loopOutline = loop at h_loop ⊢
    and_intros
  all_goals first
    | exact nameSound_field rfl (by decide)
    | exact sound_word rfl (by decide)
    | exact h_calls _
    | exact LeafSound.double _
    | assumption

/-! ### Reading -/

theorem readValue_word {cs : List Char} (src : Source) (h : Plain.ofText (String.ofList cs) = .text) :
    (word cs).node.readValue src = pure (.string (String.ofList cs)) := by
  show Node.readValue src (.scalar (scalarOf cs .plain)) = _
  rw [Node.readValue, scalarOf, Scalar.readValue, Scalar.typed]
  simp only [Scalar.Typed.ofPlain, h]
  rfl

def callValue (args : List String) : Value :=
  .object [("action", .string "exec"), ("capability", .string "shell"),
    ("params", .object [("args", .array (args.map .string)), ("command", .string "adb")]),
    ("type", .string "plugin_call")]

def searchValue (path : String) : Value :=
  .object [("break_on_true", .bool true), ("condition_type", .string "template_match"),
    ("input_image", .string "$screen"),
    ("on_true", .array [callValue ["shell", "input", "tap", "$match_x", "$match_y"]]), ("template_path", .string path),
    ("threshold", .float Action.defaultThreshold), ("type", .string "condition")]

def loopValue (path : String) : Value :=
  .object [
    ("actions", .array [
      callValue ["shell", "screencap", "-p", "$device_screen"],
      callValue ["pull", "$device_screen", "$screen"],
      searchValue path]),
    ("interval", .float two), ("max_iterations", .nat 30), ("type", .string "loop")]

theorem ofValue_loopValue (path : String) : Action.ofValue (loopValue path) = .ok (loopAction path) := rfl

theorem readValues_texts (src : Source) (args : List String) :
    Node.readValues src ((args.map String.toList).map fun cs => .scalar (scalarOf cs .quoted)) =
      pure (args.map .string) := by
  induction args with
  | nil => rfl
  | cons arg args ih =>
    have h_arg : Node.readValue src (.scalar (scalarOf arg.toList .quoted)) =
        pure (.string (String.ofList arg.toList)) := rfl
    rw [String.ofList_toList] at h_arg
    exact Node.readValues_cons h_arg ih

theorem readValue_call (depth : ℕ) (args : List String) :
    (callOutline args).node.readValue ⟨depth + 3, none⟩ = pure (callValue args) := by
  have h_nil : ∀ src, Node.readValueEntries src [] = pure [] := fun _ => rfl
  have h_args : (list (args.map String.toList)).node.readValue ⟨depth + 1, none⟩ = pure (.array (args.map .string)) :=
    Node.readValue_seq ⟨depth, none⟩ rfl (readValues_texts _ args)
  have h_params : (Outline.map [field "command" (word "adb".toList),
      field "args" (list (args.map String.toList))]).node.readValue ⟨depth + 2, none⟩ =
        pure (.object (Fields.ofList [("command", .string "adb"), ("args", .array (args.map .string))])) :=
    Node.readValue_map ⟨depth + 1, none⟩ rfl
      (Node.readValueEntries_cons rfl rfl (Node.readValueEntries_cons rfl h_args (h_nil _)))
  -- fields are kept in the order of their names, not in that of the text
  have h_sorted : ∀ a b c d e : Value, Fields.ofList [("type", a), ("capability", b), ("action", c),
      ("params", .object (Fields.ofList [("command", d), ("args", e)]))] =
      [("action", c), ("capability", b), ("params", .object [("args", e), ("command", d)]), ("type", a)] := by
    intros
    simp only [Fields.ofList, List.foldl_cons, Fields.insert, String.reduceBEq, Bool.false_eq_true, ↓reduceIte,
      String.reduceLT, List.foldl_nil]
  refine (Node.readValue_map ⟨depth + 2, none⟩ rfl (Node.readValueEntries_cons rfl rfl
    (Node.readValueEntries_cons rfl rfl (Node.readValueEntries_cons rfl rfl
      (Node.readValueEntries_cons rfl h_params (h_nil _)))))).trans ?_
  exact congrArg (fun fields => pure (Value.object fields)) (h_sorted _ _ _ _ _)

theorem readValue_search {path : List Char} (h : Plain.ofText (String.ofList path) = .text) :
    (searchOutline path).node.readValue ⟨124, none⟩ = pure (searchValue (String.ofList path)) := by
  have h_sorted : ∀ a b c d e f g : Value, Fields.ofList [("type", a), ("condition_type", b), ("template_path", c),
      ("input_image", d), ("threshold", e), ("break_on_true", f), ("on_true", g)] =
      [("break_on_true", f), ("condition_type", b), ("input_image", d), ("on_true", g), ("template_path", c),
        ("threshold", e), ("type", a)] := by
    intros
    simp only [Fields.ofList, List.foldl_cons, Fields.insert, String.reduceBEq, Bool.false_eq_true, ↓reduceIte,
      String.reduceLT, List.foldl_nil]
  refine (Node.readValue_map ⟨123, none⟩ rfl (Node.readValueEntries_cons rfl rfl (Node.readValueEntries_cons rfl rfl
    (Node.readValueEntries_cons rfl (readValue_word _ h) rfl)))).trans ?_
  exact congrArg (fun fields => pure (Value.object fields)) (h_sorted _ _ _ _ _ _ _)

theorem readValue_loop {path : List Char} (h : Plain.ofText (String.ofList path) = .text) :
    (loopOutline path).node.readValue ⟨126, none⟩ = pure (loopValue (String.ofList path)) := by
  have h_nil : Node.readValues ⟨124, none⟩ [] = pure [] := rfl
  have h_shot := readValue_call 121 ["shell", "screencap", "-p", "$device_screen"]
  have h_pull := readValue_call 121 ["pull", "$device_screen", "$screen"]
  have h_actions : Node.readValue ⟨125, none⟩ (.seq none _) = pure _ := Node.readValue_seq ⟨124, none⟩ rfl
    (Node.readValues_cons h_shot (Node.readValues_cons h_pull (Node.readValues_cons (readValue_search h) h_nil)))
  -- fields are kept in the order of their names, not in that of the text
  have h_sorted : ∀ a b c d : Value,
      Fields.ofList [("type", a), ("interval", b), ("max_iterations", c), ("actions", d)] =
      [("actions", d), ("interval", b), ("max_iterations", c), ("type", a)] := by
    intros
    simp only [Fields.ofList, List.foldl_cons, Fields.insert, String.reduceBEq, Bool.false_eq_true, ↓reduceIte,
      String.reduceLT, List.foldl_nil]
  refine (Node.readValue_map ⟨125, none⟩ rfl (Node.readValueEntries_cons rfl rfl (Node.readValueEntries_cons rfl rfl
    (Node.readValueEntries_cons rfl rfl (Node.readValueEntries_cons rfl h_actions rfl))))).trans ?_
  exact congrArg (fun fields => pure (Value.object fields)) (h_sorted _ _ _ _)

theorem readFields_pictures {device screen : List Char} (h_device : Plain.ofText (String.ofList device) = .text)
    (h_screen : Plain.ofText (String.ofList screen) = .text) :
    (picturesOutline device screen).node.readFields ⟨127, none⟩ =
      pure [("device_screen", .string (String.ofList device)), ("screen", .string (String.ofList screen))] := by
  have h_sorted : ∀ a b : Value, Fields.ofList [("device_screen", a), ("screen", b)] =
      [("device_screen", a), ("screen", b)] := by
    intros
    simp only [Fields.ofList, List.foldl_cons, Fields.insert, String.reduceBEq, Bool.false_eq_true, ↓reduceIte,
      String.reduceLT, List.foldl_nil]
  exact (Node.readFields_map ⟨126, none⟩ rfl (Node.readValueEntries_cons rfl (readValue_word _ h_device)
    (Node.readValueEntries_cons rfl (readValue_word _ h_screen) rfl))).trans (congrArg pure (h_sorted _ _))

/-- The actions of a script that waits for a button. -/
theorem readList_polling {path : List Char} (h : Plain.ofText (String.ofList path) = .text) :
    Node.readList Node.readAction ⟨127, none⟩ (Outline.seq [loopOutline path, finishOutline]).node =
      pure [loopAction (String.ofList path), .setVariable "finished" (.bool true) none] := by
  have h_loop : (loopOutline path).node.readAction ⟨126, none⟩ = pure (loopAction (String.ofList path)) := by
    rw [Node.readAction, readValue_loop h, pure_bind, ofValue_loopValue]
    rfl
  have h_finish : finishOutline.node.readAction ⟨126, none⟩ = pure (.setVariable "finished" (.bool true) none) := rfl
  exact Node.readList_seq ⟨126, none⟩ rfl (Node.mapM_cons h_loop (Node.mapM_cons h_finish List.mapM_nil))

theorem splice_eq (front back name : String) :
    String.ofList (front.toList ++ (name.toList ++ back.toList)) = front ++ name ++ back := by
  rw [← String.toList_inj]
  simp

/-- A path with any name in it is a text. -/
theorem ofText_path {front : String} {c : Char} {cs : List Char} (h : front = String.ofList (c :: cs)) (tail : List Char)
    (h_digit : c.isDigit = false) (h_sign : c ∉ ['+', '-', '.']) (h_slash : '/' ∈ c :: cs) :
    Plain.ofText (String.ofList (front.toList ++ tail)) = .text := by
  rw [h, String.toList_ofList]
  exact Plain.ofText_eq_text h_digit h_sign (List.mem_append_left tail h_slash)

theorem read_outline_basic (name : String) :
    ScriptDefinition.shape.read .yaml (outline name.toList .basic).node = pure (script name .basic) := by
  have h_screen : ∀ tail, Plain.ofText (String.ofList ("/tmp/".toList ++ tail)) = .text := fun tail =>
    ofText_path rfl tail (by decide) (by decide) (by decide)
  have h_device : ∀ tail, Plain.ofText (String.ofList ("/sdcard/".toList ++ tail)) = .text := fun tail =>
    ofText_path rfl tail (by decide) (by decide) (by decide)
  have h_button : ∀ tail, Plain.ofText (String.ofList ("templates/".toList ++ tail)) = .text := fun tail =>
    ofText_path rfl tail (by decide) (by decide) (by decide)
  rw [script, ← splice_eq, ← splice_eq, ← splice_eq]
  have h_vars := readFields_pictures (h_device (name.toList ++ "_screen.png".toList))
    (h_screen (name.toList ++ "_screen.png".toList))
  have h_actions := readList_polling (h_button (name.toList ++ "_button.png".toList))
  have h_name : Node.readText (.scalar (scalarOf name.toList .plain)) = pure name := by
    show (pure (String.ofList name.toList) : Reading String) = _
    rw [String.ofList_toList]
  refine RecordShape.read_map ⟨127, none⟩
    ["actions", "variables", "max_retries", "priority", "description", "name", "id"] rfl ?_ rfl
  -- the two names, three fields more, the variables, the actions
  refine (RecordShape.readEntries_cons rfl rfl rfl (Node.bind_of_pure h_name _)).trans ?_
  refine (RecordShape.readEntries_cons rfl rfl rfl (Node.bind_of_pure h_name _)).trans ?_
  refine (RecordShape.readEntries_cons rfl rfl rfl rfl).trans ?_
  refine (RecordShape.readEntries_cons rfl rfl rfl rfl).trans ?_
  refine (RecordShape.readEntries_cons rfl rfl rfl rfl).trans ?_
  refine (RecordShape.readEntries_cons rfl rfl rfl (Node.bind_of_pure h_vars _)).trans ?_
  exact (RecordShape.readEntries_cons rfl rfl rfl (Node.bind_of_pure h_actions _)).trans rfl

/-- The outline of a template is read as the script that it stands for. -/
theorem read_outline (name : String) (t : ScriptTemplate) :
    ScriptDefinition.shape.read .yaml (t.outline name.toList).node = pure (t.script name) := by
  have h_read : ∀ t ∈ [exception, startup], ScriptDefinition.shape.read .yaml (t.outline name.toList).node =
      pure (t.script (String.ofList name.toList)) := by
    rintro t h_t
    simp only [List.mem_cons, List.not_mem_nil, or_false] at h_t
    obtain rfl | rfl := h_t <;> rfl
  rw [String.ofList_toList] at h_read
  cases t with
  | basic => exact read_outline_basic name
  | exception => exact h_read _ (by simp)
  | startup => exact h_read _ (by simp)

/-! ### Errors -/

end ScriptTemplate

/-- A report without errors: there are actions, none of them has one, and no exception script is named. -/
theorem Validator.errors_check_eq_nil {v : Validator} {s : ScriptDefinition} (h_actions : s.actions ≠ [])
    (h_exception : s.exceptionScript = none)
    (h : ∀ a ∈ Action.walkList s.actions, (v.checkAction s.id a).errors = []) : (v.check s).errors = [] := by
  have h_all : (ValidationReport.all ((Action.walkList s.actions).map (v.checkAction s.id))).errors = [] := by
    refine List.flatMap_eq_nil_iff.mpr fun report h_report => ?_
    obtain ⟨a, h_a, rfl⟩ := List.mem_map.mp h_report
    exact h a h_a
  have h_empty : s.actions.isEmpty = false := List.isEmpty_eq_false_iff.mpr h_actions
  have h_deep : ∀ b w, (ValidationReport.warningIf b w).errors = [] := by
    rintro (_ | _) w <;> rfl
  show (((ValidationReport.errorIf s.actions.isEmpty (.emptyScript s.id)).errors ++
    (checkException v.knownScripts s.id s.exceptionScript).errors) ++ (ValidationReport.warningIf _ _).errors) ++
    (ValidationReport.all _).errors = []
  rw [h_empty, h_exception, h_deep, h_all]
  rfl

namespace ScriptTemplate

section

variable {v : Validator} (h_v : v.capabilities = some CommandSetting.capabilities.actions)

include h_v

theorem errors_call (id : String) (args : List String) : (v.checkAction id (callAction args)).errors = [] := by
  have h_filled : isBlankText "exec" = false := by decide +kernel
  rw [callAction, Validator.checkAction, h_filled, if_neg Bool.false_ne_true, Validator.checkCall, h_v]
  dsimp only
  have h_shell : Fields.get? CommandSetting.capabilities.actions "shell" = some ["exec", "echo"] := by decide +kernel
  rw [h_shell]
  rfl

omit h_v in
theorem errors_wait (id : String) (duration : Finite64) : (v.checkAction id (.wait duration none)).errors = [] := by
  rw [Validator.checkAction]
  split <;> rfl

omit h_v in
theorem errors_loop (id : String) (interval : Finite64) (body : List Action) :
    (v.checkAction id (.loop interval 30 body none)).errors = [] := by
  rw [Validator.checkAction]
  split <;> rfl

/-- The script of a template has no errors. -/
theorem errors_script (name : String) (t : ScriptTemplate) : (v.check (t.script name)).errors = [] := by
  have h_calls := errors_call h_v name
  have h_threshold : (Validator.checkThreshold name Action.defaultThreshold).errors = [] := by
    have h_range : Validator.isUnitRange Action.defaultThreshold = true := by decide +kernel
    rw [Validator.checkThreshold, h_range]
    rfl
  refine Validator.errors_check_eq_nil (by cases t <;> exact List.cons_ne_nil _ _) (by cases t <;> rfl) ?_
  have h_walk : ∀ args, (callAction args).walk = [callAction args] := fun _ => rfl
  -- the actions of each template, one check for each
  cases t <;>
    simp only [script, loopAction, Action.walkList, Action.walk, h_walk, List.cons_append, List.nil_append,
      List.append_nil, List.forall_mem_cons]
  case basic =>
    exact ⟨errors_loop _ _ _, h_calls _, h_calls _, h_threshold, h_calls _, rfl, List.forall_mem_nil _⟩
  case exception => exact ⟨h_calls _, errors_wait _ _, h_calls _, List.forall_mem_nil _⟩
  case startup => exact ⟨h_calls _, errors_wait _ _, rfl, rfl, List.forall_mem_nil _⟩

end

/-! ### Scripts by their names -/

/-- The text of a template is read as the script that it stands for. -/
theorem parse_text {name : String} (h : Takes name) (t : ScriptTemplate) :
    ScriptDefinition.parse .yaml (t.text name) = .ok (t.script name) := by
  have h_sound : (t.outline name.toList).TopSound true := by
    have h_sound := sound_outline h t
    cases t <;> exact h_sound
  -- the text begins with the id, so it is not blank
  have h_filled : isBlankText (t.text name) = false := by
    obtain ⟨rest, h_lines⟩ : ∃ rest, t.lines name = ("id: " ++ name) :: rest := by cases t <;> exact ⟨_, rfl⟩
    rw [text_eq, isBlankText, String.toList_ofList, List.all_eq_false, h_lines]
    exact ⟨'i', by simp, by decide⟩
  -- the name is not empty, which is all that is asked of a parsed script
  have h_flaw : (t.script name).flaw? = none := by
    have h_id : (t.script name).id = name := by cases t <;> rfl
    rw [ScriptDefinition.flaw?, h_id, h.filled]
    rfl
  have h_read_top : ∃ references, readDocument (String.ofList ((t.outline name.toList).top 2 true).text) =
      ⟨(t.outline name.toList).node, none, references⟩ := Outline.readDocument_top h_sound
  obtain ⟨references, h_document⟩ := h_read_top
  have h_read : (readDocument (t.text name)).read (ScriptDefinition.shape.read .yaml) = .ok (t.script name) := by
    rw [text_outline, h_document, Document.read]
    dsimp only
    rw [read_outline]
    rfl
  unfold ScriptDefinition.parse
  rw [h_filled, DocumentFormat.read]
  dsimp only
  rw [h_read]
  simp only [Bool.false_eq_true, if_false, bind, Except.bind, h_flaw]
  rfl

/-- **A script goes by the name it was asked for**: if the template takes up the name, the text is one of a script with
this id and this display name, and no validator that knows the capabilities of the program finds an error in it. -/
theorem script_goes_by_its_name {name : String} (h : Takes name) (t : ScriptTemplate) :
    ∃ s, ScriptDefinition.parse .yaml (t.text name) = .ok s ∧ s.id = name ∧ s.displayName = name ∧
      ∀ v : Validator, v.capabilities = some CommandSetting.capabilities.actions → (v.check s).errors = [] := by
  refine ⟨t.script name, parse_text h t, ?_, ?_, fun v h_v => errors_script h_v name t⟩
  · cases t <;> rfl
  · -- the id and the name are one, so it does not matter which of them is shown
    cases t <;> exact ite_self name

/-- A name of two words with a colon and a number sign in them. -/
theorem clock_script_goes_by_its_name :
    Takes "nightly#1 at 12:30" ∧
      ∃ s, ScriptDefinition.parse .yaml (basic.text "nightly#1 at 12:30") = .ok s ∧ s.id = "nightly#1 at 12:30" ∧
        s.displayName = "nightly#1 at 12:30" ∧
        ∀ v : Validator, v.capabilities = some CommandSetting.capabilities.actions → (v.check s).errors = [] := by
  have h_takes : Takes "nightly#1 at 12:30" := .of_allowsPlain (by decide +kernel) (by decide +kernel)
  exact ⟨h_takes, script_goes_by_its_name h_takes basic⟩

/-! ### Names that are cut short -/

/-- What a parser makes of the tokens of a text. -/
def parsed (cut : List Token × Bool) : Except ScriptError ScriptDefinition :=
  let (tree, r) := ({ tokens := cut.1, faulty := cut.2 : TreeReader }).readTree
  let document : Document :=
    { root := tree.toNode (targetOf (targets r.anchors referenceDepth))
      trailing := if r.failed || r.endsText then none else some .malformed
      references := 100 * r.events }
  match document.read (ScriptDefinition.shape.read .yaml) with
  | .ok s => match s.flaw? with
    | some flaw => .error (.structure flaw)
    | none => .ok s
  | .error e => .error (.yaml e)

/-- A text is parsed by its characters. -/
theorem parse_ofList {cs : List Char} (h_blank : cs.all isBlank = false) (h_allowed : cs.all isAllowed = true) :
    ScriptDefinition.parse .yaml (String.ofList cs) = parsed (Scanner.run (cs.length + 1) (Scanner.start cs)) := by
  have h_filled : isBlankText (String.ofList cs) = false := by
    rw [isBlankText, String.toList_ofList, h_blank]
  unfold ScriptDefinition.parse
  rw [h_filled]
  unfold DocumentFormat.read readDocument tokens
  dsimp only
  rw [String.toList_ofList, h_allowed, if_pos rfl]
  unfold parsed
  dsimp only
  -- both sides look for a flaw of the script that was read
  cases Document.read _ (ScriptDefinition.shape.read .yaml) with
  | error e => rfl
  | ok s =>
    show (match s.flaw? with
      | some flaw => Except.error (ScriptError.structure flaw)
      | none => .ok s) = _
    rfl

/-- Behind a blank, a number sign and the rest of the name are taken for a comment: a script that is asked for as
`build #2` is read as `build`. -/
theorem build_two_is_cut_short :
    isBlankText "build #2" = false ∧ (∀ c ∈ "build #2".toList, isPrintable c = true ∧ isBreak c = false) ∧
      (ScriptDefinition.parse .yaml (exception.text "build #2")).toOption.map (fun s => (s.id, s.displayName)) =
        some ("build", "build") := by
  have h_clear : "build #2".toList.all (fun c => isPrintable c && !isBreak c) = true := by decide
  refine ⟨by decide, fun c h_c => by simpa using List.all_eq_true.mp h_clear c h_c, ?_⟩
  rw [text_eq]
  simp only [lines, List.flatMap_cons, List.flatMap_nil, String.toList_append]
  repeat rw [String.toList_ofList]
  rw [parse_ofList (by decide +kernel) (by decide +kernel)]
  decide +kernel

end ScriptTemplate

end ScriptYard
