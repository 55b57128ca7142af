import Mathlib
import Arvore.CommandLine.Run

/-!
# What a command does to files

A command line is followed in one of four ways: it fails, it is about another command than `build`, it asks for the
usage of `build`, or it compiles a file and writes the result (`Course`). Files are as they were in all of them but
the last, which changes one path and nothing else. So nothing is written unless all went well, and then it is the
assembly of the input (`run_writes_only_on_success`).
-/

namespace Arvore.CommandLine

/-! ### The file that is written -/

/-- A name is a stem and an extension. The extension starts at the last dot behind the last slash, and is empty if there
is no dot there. -/
def Splits (name stem extension : List Char) : Prop :=
  name = stem ++ extension ∧
    ((∃ rest, extension = '.' :: rest ∧ ∀ c ∈ rest, c ≠ '.' ∧ c ≠ '/') ∨
      extension = [] ∧ ∀ before rest, name = before ++ '.' :: rest → '/' ∈ rest)

/-- The output is the file that was asked for. If none was, it is the input with the extension of assembly files. -/
def Settings.Output (settings : Settings) (input output : String) : Prop :=
  (settings.output ≠ "" ∧ output = settings.output) ∨
    (settings.output = "" ∧ ∃ stem extension, Splits input.toList stem extension ∧ output.toList = stem ++ ['.', 's'])

theorem splits_withoutExtension (name : List Char) : ∃ extension, Splits name (withoutExtension name) extension := by
  let p : Char → Bool := fun c => c ≠ '.' ∧ c ≠ '/'
  let tail := (name.reverse.takeWhile p).reverse
  have htail : ∀ c ∈ tail, c ≠ '.' ∧ c ≠ '/' := by
    intro c hc
    have h := List.mem_takeWhile_imp (List.mem_reverse.1 hc)
    simpa [p] using h
  have hname : name = (name.reverse.dropWhile p).reverse ++ tail := by
    rw [← List.reverse_append, List.takeWhile_append_dropWhile, List.reverse_reverse]
  -- read from its end, the name goes on behind the tail with a dot, with a slash or not at all
  unfold withoutExtension
  dsimp only
  split
  · rename_i stem hrest
    have hrest : name.reverse.dropWhile p = '.' :: stem := hrest
    refine ⟨'.' :: tail, ?_, .inl ⟨tail, rfl, htail⟩⟩
    rwa [hrest, List.reverse_cons, List.append_assoc, List.singleton_append] at hname
  · rename_i hnone
    refine ⟨[], (List.append_nil _).symm, .inr ⟨rfl, ?_⟩⟩
    intro before rest hdot
    cases hrest : name.reverse.dropWhile p with
    | nil =>
      rw [hrest, List.reverse_nil, List.nil_append] at hname
      have hmem : '.' ∈ tail := by rw [← hname, hdot]; simp
      exact absurd rfl (htail _ hmem).1
    | cons c stem =>
      have hslash : c = '/' := by
        have hhead := List.head?_dropWhile_not p name.reverse
        have hne : c ≠ '.' := by
          rintro rfl
          exact hnone stem hrest
        rw [hrest] at hhead
        simpa [p, hne] using hhead
      subst hslash
      rw [hrest, List.reverse_cons, List.append_assoc, List.singleton_append] at hname
      rw [hname, List.append_eq_append_iff] at hdot
      -- the dot stands in front of this slash, since none stands in the tail
      rcases hdot with ⟨more, -, h⟩ | ⟨more, -, h⟩
      · rcases List.cons_eq_append_iff.1 h with ⟨-, h⟩ | ⟨more', -, h⟩
        · cases h
        · have hmem : '.' ∈ tail := by rw [h]; simp
          exact absurd rfl (htail _ hmem).1
      · rcases List.cons_eq_append_iff.1 h with ⟨-, h⟩ | ⟨more', -, h⟩
        · cases h
        · rw [h]
          simp

theorem Settings.output_command (settings : Settings) (input : String) :
    settings.Output input (if settings.output = "" then defaultOutput input else settings.output) := by
  by_cases h : settings.output = ""
  · obtain ⟨extension, hsplits⟩ := splits_withoutExtension input.toList
    rw [if_pos h]
    exact .inr ⟨h, _, extension, hsplits, by simp [defaultOutput]⟩
  · rw [if_neg h]
    exact .inl ⟨h, rfl⟩

/-! ### Following a command line -/

/-- The ways in which a command line can be followed, with the reply and the files afterwards. -/
inductive Course (arguments : List String) (files : FileTree) : Reply × FileTree → Prop
  | failed {reply} (h : reply.exitCode ≠ 0) : Course arguments files (reply, files)
  /-- another command than `build`, or none -/
  | other {reply} (h : arguments.head? ≠ some "build") : Course arguments files (reply, files)
  /-- the usage of `build` -/
  | usage {reply flags} (ha : arguments = "build" :: flags) (hf : Settings.read Verb.build.flags {} flags = .help) :
      Course arguments files (reply, files)
  | built {reply flags settings input output source assembly path} (ha : arguments = "build" :: flags)
      (hf : Settings.read Verb.build.flags {} flags = .done settings [input]) (ho : settings.Output input output)
      (hs : files.read input = .ok source)
      (hc : (compileText settings.align (Text.Utf8.decode source)).2 = .ok assembly)
      (hp : files.target output = .ok path) (hr : reply.exitCode = 0) :
      Course arguments files (reply, files.put path (Text.Utf8.encode assembly))

theorem Reply.exitCode_rejected (log : String) (error : CompileError) : (Reply.rejected log error).exitCode ≠ 0 := by
  rcases error with error | (found | fault) <;> simp [Reply.rejected, Reply.failed, failureCode]

/-- Only a build asks for a file to be written. -/
theorem Command.action_eq_reply (read : String → Except FileError (List Char)) {c : Command}
    (h : ∀ input output verbose align, c ≠ .build input output verbose align) :
    ∃ reply, c.action read = .reply reply := by
  cases c with
  | help => exact ⟨_, rfl⟩
  | build input output verbose align => exact absurd rfl (h input output verbose align)
  | check input verbose =>
    rw [action]
    split <;> exact ⟨_, rfl⟩
  | asm tree align =>
    rw [action]
    split <;> exact ⟨_, rfl⟩

/-- Only the command `build` is read as a build. -/
theorem Command.parse_ne_build {arguments : List String} (h : arguments.head? ≠ some "build") {c : Command}
    (hc : Command.parse arguments = .ok c) (input output : String) (verbose align : Bool) :
    c ≠ .build input output verbose align := by
  have hverb {v : Verb} (hv : v ≠ .build) {rest : List String} (hc : v.parse rest = .ok c) :
      c ≠ .build input output verbose align := by
    unfold Verb.parse at hc
    split at hc
    · cases v with
      | build => exact absurd rfl hv
      | check | asm =>
        cases hc
        simp [Verb.command]
    all_goals cases hc
  cases arguments with
  | nil => cases hc
  | cons name rest =>
    have hname : name ≠ "build" := by simpa using h
    rw [Command.parse, if_neg hname] at hc
    split at hc
    · exact hverb (by simp) hc
    · split at hc
      · exact hverb (by simp) hc
      · split at hc <;> cases hc
        simp

/-- A build that was understood fails or writes its output. -/
theorem course_build {flags : List String} {files : FileTree} {settings : Settings} {input : String}
    (hf : Settings.read Verb.build.flags {} flags = .done settings [input]) :
    Course ("build" :: flags) files (run ("build" :: flags) files) := by
  have hparse : Command.parse ("build" :: flags) = .ok (Verb.build.command settings input) := by
    rw [Command.parse, if_pos rfl, Verb.parse, hf]
  rw [run, hparse]
  dsimp only [Verb.command, Command.action]
  have houtput := settings.output_command input
  generalize (if settings.output = "" then defaultOutput input else settings.output) = output at houtput
  cases hs : files.read input with
  | error error => exact .failed (by simp [Reply.unreadable])
  | ok source =>
    simp only [Except.map]
    rcases hc : compileText settings.align (Text.Utf8.decode source) with ⟨events, error | assembly⟩
    · exact .failed (Reply.exitCode_rejected _ error)
    · simp only [FileTree.write]
      cases hp : files.target output with
      | error error => exact .failed (by simp [Reply.written])
      | ok path => exact .built rfl hf houtput hs (by rw [hc]) hp rfl

/-- Every command line is followed in one of these ways. -/
theorem run_course (arguments : List String) (files : FileTree) : Course arguments files (run arguments files) := by
  by_cases h : arguments.head? = some "build"
  · obtain ⟨flags, rfl⟩ := List.head?_eq_some_iff.1 h
    cases hf : Settings.read Verb.build.flags {} flags with
    | help =>
      have hparse : Command.parse ("build" :: flags) = .error (.verbHelp .build) := by
        rw [Command.parse, if_pos rfl, Verb.parse, hf]
      rw [run, hparse]
      exact .usage rfl hf
    | failed error =>
      have hparse : Command.parse ("build" :: flags) = .error (.flags .build error) := by
        rw [Command.parse, if_pos rfl, Verb.parse, hf]
      rw [run, hparse]
      exact .failed (by simp [Reply.refused, Refusal.exitCode])
    | done settings operands =>
      by_cases hone : ∃ input, operands = [input]
      · obtain ⟨input, rfl⟩ := hone
        exact course_build hf
      · have hparse : Command.parse ("build" :: flags) = .error (.operands .build) := by
          rw [Command.parse, if_pos rfl, Verb.parse, hf]
          split
          · rename_i heq
            cases heq
            exact absurd ⟨_, rfl⟩ hone
          · rfl
          all_goals rename_i heq; cases heq
        rw [run, hparse]
        exact .failed (by simp [Reply.refused, Refusal.exitCode])
  · rw [run]
    cases hparse : Command.parse arguments with
    | error refusal => exact .other h
    | ok c =>
      obtain ⟨reply, hreply⟩ := Command.action_eq_reply (fun name => (files.read name).map Text.Utf8.decode)
        (Command.parse_ne_build h hparse)
      simp only [hreply]
      exact .other h

/-! ### Files afterwards -/

/-- The second tree differs from the first in nothing but the file at a path, which has the given bytes. -/
structure FileTree.DiffersAt (before after : FileTree) (path : Path) (bytes : List UInt8) : Prop where
  written : after.bytes? path = some bytes
  others : ∀ other, other ≠ path → after.bytes? other = before.bytes? other

theorem FileTree.differsAt_put (files : FileTree) (path : Path) (bytes : List UInt8) :
    files.DiffersAt (files.put path bytes) path bytes :=
  ⟨files.bytes?_put path bytes, fun _ h => files.bytes?_put_of_ne bytes h⟩

/-- Files are written only on success. If the exit code is not zero, or the command is not `build`, the files are
as they were. A build with the exit code zero has shown its usage and left the files as they were, or it has
compiled its input: then it differs from before in the path of its output at most, which holds the assembly of the
input's content, with frames aligned if that was asked for. -/
theorem run_writes_only_on_success (arguments : List String) (files : FileTree) :
    ((run arguments files).1.exitCode ≠ 0 → (run arguments files).2 = files) ∧
    (arguments.head? ≠ some "build" → (run arguments files).2 = files) ∧
    ∀ flags, arguments = "build" :: flags → (run arguments files).1.exitCode = 0 →
      (Settings.read Verb.build.flags {} flags = .help ∧ (run arguments files).2 = files) ∨
      ∃ settings input output source assembly path,
        Settings.read Verb.build.flags {} flags = .done settings [input] ∧ settings.Output input output ∧
        files.read input = .ok source ∧ (compileText settings.align (Text.Utf8.decode source)).2 = .ok assembly ∧
        files.target output = .ok path ∧
        files.DiffersAt (run arguments files).2 path (Text.Utf8.encode assembly) := by
  have hcourse := run_course arguments files
  generalize run arguments files = result at hcourse
  cases hcourse with
  | failed h => exact ⟨fun _ => rfl, fun _ => rfl, fun _ _ h0 => absurd h0 h⟩
  | other h =>
    refine ⟨fun _ => rfl, fun _ => rfl, ?_⟩
    rintro flags rfl
    exact absurd rfl h
  | usage ha hf =>
    refine ⟨fun _ => rfl, fun _ => rfl, ?_⟩
    rintro flags ha' -
    rw [ha] at ha'
    cases ha'
    exact .inl ⟨hf, rfl⟩
  | built ha hf ho hs hc hp hr =>
    refine ⟨fun h => absurd hr h, fun h => absurd (by rw [ha]; rfl) h, ?_⟩
    rintro flags ha' -
    rw [ha] at ha'
    cases ha'
    exact .inr ⟨_, _, _, _, _, _, hf, ho, hs, hc, hp, files.differsAt_put _ _⟩

/-- A directory with a program, and another directory. -/
def workshop : FileTree := .ofList [("f.tree", "(program (func f [] [(decl logico x)]))"), ("out/notes", "empty")]

/-- A build that names its output. -/
def workshopBuild : List String := ["build", "-align", "--o=out/f.s", "f.tree"]

theorem workshop_build_writes_one_file : (run workshopBuild workshop).1.exitCode = 0 ∧
    workshop.bytes? ["out", "f.s"] = none ∧ ∃ assembly,
      (compileText true "(program (func f [] [(decl logico x)]))".toList).2 = .ok assembly ∧
      workshop.DiffersAt (run workshopBuild workshop).2 ["out", "f.s"] (Text.Utf8.encode assembly) := by
  have hexit : (run workshopBuild workshop).1.exitCode = 0 := by decide +kernel
  have hflags : Settings.read Verb.build.flags {} ["-align", "--o=out/f.s", "f.tree"] =
      .done ⟨"out/f.s", false, true⟩ ["f.tree"] := by decide +kernel
  have hsource : (workshop.read "f.tree").map Text.Utf8.decode =
      .ok "(program (func f [] [(decl logico x)]))".toList := by decide +kernel
  have hpath : workshop.target "out/f.s" = .ok ["out", "f.s"] := by decide +kernel
  refine ⟨hexit, by decide, ?_⟩
  rcases (run_writes_only_on_success workshopBuild workshop).2.2 _ rfl hexit with ⟨hf, -⟩ | h
  · cases hflags.symm.trans hf
  · obtain ⟨settings, input, output, source, assembly, path, hf, ho, hs, hc, hp, hdiffers⟩ := h
    cases hflags.symm.trans hf
    obtain ⟨-, rfl⟩ | ⟨h, -⟩ := ho
    · rw [hs] at hsource
      cases hp.symm.trans hpath
      exact ⟨assembly, by rwa [← Except.ok.inj hsource], hdiffers⟩
    · exact absurd h (by decide)

end Arvore.CommandLine
