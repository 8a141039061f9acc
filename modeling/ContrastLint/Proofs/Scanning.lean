import ContrastLint.Proofs.Entries
import ContrastLint.Proofs.LintAgreement
import ContrastLint.Scan

/-!
# What a scan finds

The files of a tree are listed here with the names that lead to them, and none
is left out.  A scan reports those that it accepts, in their order: it looks at
the names between its root and a file, at the extension of the file, and at
nothing else.  Each file is linted as if it were the only one.
-/

namespace ContrastLint

/-- The path that is reached from another by following names. -/
def Path.descend (path : String) (names : List String) : String :=
  names.foldl join path

namespace FileTree

/-- What names lead to in a tree. -/
def at? : List String → FileTree → Option FileTree
  | [], tree => some tree
  | _ :: _, .file _ => none
  | name :: names, .directory entries => (entries.lookup name).bind (at? names)

/-- The entries of every directory have ascending names. -/
inductive Sorted : FileTree → Prop
  | file (content : ByteArray) : Sorted (.file content)
  | directory {entries : List (String × FileTree)}
      (names : entries.Pairwise fun a b => a.1 < b.1)
      (subtrees : ∀ entry ∈ entries, Sorted entry.2) : Sorted (.directory entries)

mutual

/-- All files of a tree, with the names that lead to them. -/
def files : FileTree → List (List String × ByteArray)
  | .file content => [([], content)]
  | .directory entries => filesIn entries

def filesIn : List (String × FileTree) → List (List String × ByteArray)
  | [] => []
  | (name, tree) :: rest => tree.files.map (Prod.map (name :: ·) id) ++ filesIn rest

end

end FileTree

namespace Config

/-- A scan at a path takes up the file that these names lead to. -/
def visits (config : Config) (path : String) (names : List String) : Bool :=
  names.dropLast.all (fun name => !config.skipsDirectory name) &&
    config.acceptsFile (Path.descend path names)

/-- A scan below a root reports the file that these names lead to, with this text. -/
structure Reports (config : Config) (root : String) (tree : FileTree)
    (names : List String) (css : String) : Prop where
  file : ∃ content, tree.at? names = some (.file content) ∧ String.fromUTF8? content = some css
  directories : ∀ name ∈ names.dropLast, name.toList.head? ≠ some '.' ∧ name ∉ config.exclude
  extension : ∃ accepted ∈ config.extensions,
    Text.equalsIgnoringCase accepted (Path.extension (Path.descend root names)) = true

end Config

/-! ## Files by their names -/

namespace FileTree

theorem filesIn_eq (entries : List (String × FileTree)) :
    filesIn entries =
      entries.flatMap fun entry => entry.2.files.map (Prod.map (entry.1 :: ·) id) := by
  induction entries with
  | nil => rfl
  | cons entry entries ih => rw [filesIn, ih, List.flatMap_cons]

theorem mem_filesIn_iff
    {entries : List (String × FileTree)} {names : List String} {content : ByteArray} :
    (names, content) ∈ filesIn entries ↔
      ∃ entry ∈ entries, ∃ rest, names = entry.1 :: rest ∧ (rest, content) ∈ entry.2.files := by
  rw [filesIn_eq, List.mem_flatMap]
  constructor
  · rintro ⟨entry, hentry, hmem⟩
    obtain ⟨⟨rest, _⟩, hrest, heq⟩ := List.mem_map.mp hmem
    cases heq
    exact ⟨entry, hentry, rest, rfl, hrest⟩
  · rintro ⟨entry, hentry, rest, rfl, hrest⟩
    exact ⟨entry, hentry, List.mem_map.mpr ⟨_, hrest, rfl⟩⟩

/-- Every file of a sorted tree is listed. -/
theorem mem_files_iff
    {tree : FileTree} (h : tree.Sorted) {names : List String} {content : ByteArray} :
    (names, content) ∈ tree.files ↔ tree.at? names = some (.file content) := by
  induction h generalizing names with
  | file =>
      cases names with
      | nil => simp [files, at?, eq_comm]
      | cons => simp [files, at?]
  | @directory entries hnames _ ih =>
      rw [files, mem_filesIn_iff]
      cases names with
      | nil => simp [at?]
      | cons name names =>
          simp only [at?, Option.bind_eq_some_iff,
            Entries.lookup_eq_some_iff (Entries.Ascending.nodup hnames)]
          constructor
          · rintro ⟨entry, hentry, rest, heq, hrest⟩
            cases heq
            exact ⟨entry.2, hentry, (ih entry hentry).mp hrest⟩
          · rintro ⟨tree, hentry, hat⟩
            exact ⟨_, hentry, names, rfl, (ih _ hentry).mpr hat⟩

/-- The files of a sorted tree are listed in the order of their names. -/
theorem pairwise_files {tree : FileTree} (h : tree.Sorted) :
    tree.files.Pairwise fun a b => a.1 < b.1 := by
  induction h with
  | file => exact List.pairwise_singleton _ _
  | @directory entries hnames _ ih =>
      rw [files, filesIn_eq, List.pairwise_flatMap]
      constructor
      · intro entry hentry
        rw [List.pairwise_map]
        apply (ih entry hentry).imp
        intro a b hless
        exact List.cons_lt_cons_iff.mpr (.inr ⟨rfl, hless⟩)
      · apply hnames.imp
        intro entry other hless first hfirst second hsecond
        obtain ⟨a, -, rfl⟩ := List.mem_map.mp hfirst
        obtain ⟨b, -, rfl⟩ := List.mem_map.mp hsecond
        exact List.cons_lt_cons_iff.mpr (.inl hless)

end FileTree

/-! ## The walk -/

theorem Path.utf8ByteSize_le_descend (path : String) (names : List String) :
    path.utf8ByteSize ≤ (descend path names).utf8ByteSize := by
  induction names generalizing path with
  | nil => exact le_rfl
  | cons name names ih =>
      have hjoin : path.utf8ByteSize ≤ (join path name).utf8ByteSize := by
        unfold join
        split <;> (simp [String.utf8ByteSize_append]; try omega)
      exact hjoin.trans (ih (join path name))

theorem Path.isTooLong_descend {path : String} (h : isTooLong path = true) (names : List String) :
    isTooLong (descend path names) = true := by
  have hsize := utf8ByteSize_le_descend path names
  simp only [isTooLong, decide_eq_true_eq] at h ⊢
  omega

theorem Config.visits_cons
    (config : Config) (path name : String) {names : List String} (h : names ≠ []) :
    config.visits path (name :: names) =
      (!config.skipsDirectory name && config.visits (Path.join path name) names) := by
  simp [visits, List.dropLast_cons_of_ne_nil h, Path.descend, Bool.and_assoc]

namespace FileTree

variable {config : Config} {path : String}

/-- The files that a scan at a path takes up. -/
def visited (config : Config) (path : String) (files : List (List String × ByteArray)) :
    List (String × ByteArray) :=
  (files.filter fun file => config.visits path file.1).map (Prod.map (Path.descend path) id)

theorem visited_append (files others : List (List String × ByteArray)) :
    visited config path (files ++ others) =
      visited config path files ++ visited config path others := by
  simp [visited]

theorem visited_entry
    {name : String} {files : List (List String × ByteArray)} (hne : ∀ file ∈ files, file.1 ≠ []) :
    visited config path (files.map (Prod.map (name :: ·) id)) =
      if config.skipsDirectory name then [] else visited config (Path.join path name) files := by
  have hvisits : files.filter ((fun file => config.visits path file.1) ∘
      Prod.map (name :: ·) id) =
        files.filter fun file =>
          !config.skipsDirectory name && config.visits (Path.join path name) file.1 := by
    apply List.filter_congr
    intro file hfile
    exact config.visits_cons path name (hne file hfile)
  rw [visited, visited, List.filter_map, List.map_map, hvisits]
  cases config.skipsDirectory name with
  | true => simp
  | false =>
      simp only [Bool.not_false, Bool.true_and, Bool.false_eq_true, if_false]
      rfl

theorem visited_file (content : ByteArray) :
    visited config path (files (.file content)) = stylesheets config path (.file content) := by
  cases haccepts : config.acceptsFile path with
  | true => simp [visited, files, stylesheets, Config.visits, Path.descend, haccepts]
  | false => simp [visited, files, stylesheets, Config.visits, Path.descend, haccepts]

/-- A directory whose path is too long is not opened, and all paths below it are
too long as well. -/
theorem visited_directory
    {name : String} {entries : List (String × FileTree)}
    (hread : ∀ file ∈ filesIn entries,
      Path.isTooLong (Path.descend (Path.join path name) file.1) = false)
    (hwalk : stylesheetsIn config (Path.join path name) entries =
      visited config (Path.join path name) (filesIn entries)) :
    visited config path ((filesIn entries).map (Prod.map (name :: ·) id)) =
      if config.skipsDirectory name ∨ Path.isTooLong (Path.join path name) then []
      else stylesheetsIn config (Path.join path name) entries := by
  have hne : ∀ file ∈ filesIn entries, file.1 ≠ [] := by
    rintro ⟨names, content⟩ hfile
    obtain ⟨_, -, _, rfl, -⟩ := mem_filesIn_iff.mp hfile
    exact List.cons_ne_nil _ _
  rw [visited_entry hne, hwalk]
  by_cases hlong : Path.isTooLong (Path.join path name) = true
  · have hempty : filesIn entries = [] := by
      rw [List.eq_nil_iff_forall_not_mem]
      intro file hfile
      have hshort := hread file hfile
      rw [Path.isTooLong_descend hlong] at hshort
      contradiction
    simp [hempty, visited]
  · simp [hlong]

theorem stylesheetsIn_eq
    {entries : List (String × FileTree)}
    (hwalk : ∀ entry ∈ entries, ∀ path,
      (∀ file ∈ entry.2.files, Path.isTooLong (Path.descend path file.1) = false) →
      entry.2.stylesheets config path = visited config path entry.2.files)
    (hread : ∀ file ∈ filesIn entries, Path.isTooLong (Path.descend path file.1) = false) :
    stylesheetsIn config path entries = visited config path (filesIn entries) := by
  induction entries with
  | nil => rfl
  | cons entry entries ih =>
      rcases List.forall_mem_cons.mp hwalk with ⟨hfirst, hothers⟩
      rw [filesIn_eq, List.flatMap_cons, ← filesIn_eq, List.forall_mem_append] at hread
      rcases hread with ⟨hread, hmore⟩
      have hrest := ih hothers hmore
      rw [List.forall_mem_map] at hread
      rcases entry with ⟨name, content | below⟩
      · have hname : visited config path ((files (.file content)).map (Prod.map (name :: ·) id)) =
            visited config (Path.join path name) (files (.file content)) := by
          simp only [visited, files, Config.visits, Path.descend, List.map_cons, List.map_nil]
          cases haccepts : config.acceptsFile (Path.join path name) with
          | true => simp [haccepts, Path.descend]
          | false => simp [haccepts]
        rw [stylesheetsIn, filesIn, visited_append, hrest, hname, visited_file]
      · have hbelow := hfirst (Path.join path name) hread
        rw [stylesheets, files] at hbelow
        rw [stylesheetsIn, filesIn, visited_append, hrest, files, visited_directory hread hbelow,
          stylesheets]

theorem stylesheets_eq
    {tree : FileTree} (h : tree.Sorted) (config : Config) (path : String)
    (hread : ∀ file ∈ tree.files, Path.isTooLong (Path.descend path file.1) = false) :
    tree.stylesheets config path = visited config path tree.files := by
  induction h generalizing path with
  | file content => exact (visited_file content).symm
  | directory _ _ ih =>
      rw [stylesheets, files]
      exact stylesheetsIn_eq ih hread

end FileTree

/-! ## The reports -/

theorem value_scanStylesheet
    {path : String} (h : Path.isTooLong path = false) (config : LintConfig) (content : ByteArray) :
    (scanStylesheet config (path, content)).value =
      (String.fromUTF8? content).map fun css => (lintSource config path css).value := by
  have hread : readFound path content = FileView.decode content := by
    rw [readFound, h, if_neg Bool.false_ne_true]
  unfold scanStylesheet
  rw [hread, FileView.decode]
  cases String.fromUTF8? content <;> rfl

theorem value_scanDirectory_of_error
    {view : FileView} {root : String} {fault : FileFault} (h : view root = .error fault)
    (config : Config) : (scanDirectory config view root).value = [] := by
  simp [scanDirectory, h]

theorem value_scanDirectory_of_ok
    {view : FileView} {root : String} {tree : FileTree} (h : view root = .ok tree)
    (config : Config) :
    (scanDirectory config view root).value =
      (tree.stylesheets config root).filterMap fun file =>
        (scanStylesheet config.lint file).value := by
  simp [scanDirectory, h, Logged.value_mapM, List.filterMap_map]

namespace Config

/-- The files that a scan below a root reports, with their texts. -/
def reported (config : Config) (root : String) (tree : FileTree) : List (List String × String) :=
  (tree.files.filter fun file => config.visits root file.1).filterMap fun file =>
    (String.fromUTF8? file.2).map (file.1, ·)

variable {config : Config} {root : String} {tree : FileTree}

theorem visits_iff {names : List String} :
    config.visits root names = true ↔
      (∀ name ∈ names.dropLast, name.toList.head? ≠ some '.' ∧ name ∉ config.exclude) ∧
        ∃ accepted ∈ config.extensions,
          Text.equalsIgnoringCase accepted (Path.extension (Path.descend root names)) = true := by
  have hskips : ∀ name, (!config.skipsDirectory name) = true ↔
      name.toList.head? ≠ some '.' ∧ name ∉ config.exclude := by
    intro name
    simp [skipsDirectory, and_comm]
  rw [visits, Bool.and_eq_true, List.all_eq_true]
  simp only [hskips, acceptsFile, List.any_eq_true]

theorem mem_reported_iff (h : tree.Sorted) {names : List String} {css : String} :
    (names, css) ∈ config.reported root tree ↔ config.Reports root tree names css := by
  rw [reported, List.mem_filterMap]
  constructor
  · rintro ⟨⟨names, content⟩, hfile, hdecoded⟩
    obtain ⟨css, htext, heq⟩ := Option.map_eq_some_iff.mp hdecoded
    cases heq
    rcases List.mem_filter.mp hfile with ⟨hlisted, hvisits⟩
    rcases visits_iff.mp hvisits with ⟨hdirectories, hextension⟩
    exact ⟨⟨content, (FileTree.mem_files_iff h).mp hlisted, htext⟩, hdirectories, hextension⟩
  · intro hreports
    rcases hreports.file with ⟨content, hat, htext⟩
    have hlisted := (FileTree.mem_files_iff h).mpr hat
    have hvisits : config.visits root names = true :=
      visits_iff.mpr ⟨hreports.directories, hreports.extension⟩
    exact ⟨_, List.mem_filter.mpr ⟨hlisted, hvisits⟩, by simp [htext]⟩

theorem pairwise_reported (h : tree.Sorted) :
    (config.reported root tree).Pairwise fun a b => a.1 < b.1 := by
  apply List.Pairwise.filterMap _ _ ((FileTree.pairwise_files h).filter _)
  intro a b hless a' ha b' hb
  obtain ⟨_, -, rfl⟩ := Option.map_eq_some_iff.mp ha
  obtain ⟨_, -, rfl⟩ := Option.map_eq_some_iff.mp hb
  exact hless

end Config

/-- A scan of a sorted tree, in which all files can be opened, reports the texts with
an accepted extension outside hidden and excluded directories, each of them once and
in the order of their names.  Each report is that of linting the text alone.  Nothing
is reported below a root that does not exist.

All names in a tree are texts, so nothing is said of names that are not UTF-8.  A scan
takes the name of such a directory for the empty text, and enters it unless the empty name
is excluded; an extension that is not UTF-8 counts as the empty one. -/
theorem scanDirectory_reports (config : Config) (view : FileView) (root : String) :
    (∀ fault, view root = .error fault → (scanDirectory config view root).value = []) ∧
      ∀ tree, view root = .ok tree → tree.Sorted →
        (∀ names content, tree.at? names = some (.file content) →
          Path.isTooLong (Path.descend root names) = false) →
        ∃ found : List (List String × String),
          found.Pairwise (fun a b => a.1 < b.1) ∧
          (∀ names css, (names, css) ∈ found ↔ config.Reports root tree names css) ∧
          (scanDirectory config view root).value =
            found.map fun file =>
              (lintSource config.lint (Path.descend root file.1) file.2).value := by
  constructor
  · intro fault hfault
    exact value_scanDirectory_of_error hfault config
  · intro tree htree hsorted hread
    have hopened : ∀ file ∈ tree.files, Path.isTooLong (Path.descend root file.1) = false :=
      fun file hfile => hread file.1 file.2 ((FileTree.mem_files_iff hsorted).mp hfile)
    refine ⟨config.reported root tree, Config.pairwise_reported hsorted,
      fun _ _ => Config.mem_reported_iff hsorted, ?_⟩
    rw [value_scanDirectory_of_ok htree, FileTree.stylesheets_eq hsorted config root hopened,
      FileTree.visited, List.filterMap_map, Config.reported, List.map_filterMap]
    apply List.filterMap_congr
    intro file hfile
    have hshort := hopened file (List.mem_of_mem_filter hfile)
    have hvalue := value_scanStylesheet hshort config.lint file.2
    rw [Option.map_map]
    exact hvalue

/-- The case of a hidden directory, of a hidden file in another one and of a file that
is no text. -/
theorem scanDirectory_reports_hidden :
    ∃ view tree,
      tree = .directory [(".git", .directory [("a.css", .file .empty)]),
        ("b", .directory [(".a.CSS", .file .empty)]), ("c.css", .file ⟨#[0xff]⟩)] ∧
      view "site" = .ok tree ∧ tree.Sorted ∧
      (scanDirectory {} view "").value = [] ∧
      ∃ found : List (List String × String),
        found.Pairwise (fun a b => a.1 < b.1) ∧
        (["b", ".a.CSS"], "") ∈ found ∧ (∀ css, ([".git", "a.css"], css) ∉ found) ∧
        (∀ css, (["c.css"], css) ∉ found) ∧
        (scanDirectory {} view "site").value =
          found.map fun file => (lintSource {} (Path.descend "site" file.1) file.2).value := by
  have hsingle : ∀ name, (FileTree.directory [(name, .file .empty)]).Sorted := by
    intro name
    apply FileTree.Sorted.directory (List.pairwise_singleton _ _)
    rw [List.forall_mem_singleton]
    exact .file _
  obtain ⟨tree, htree⟩ : ∃ tree, tree =
      FileTree.directory [(".git", .directory [("a.css", .file .empty)]),
        ("b", .directory [(".a.CSS", .file .empty)]), ("c.css", .file ⟨#[0xff]⟩)] := ⟨_, rfl⟩
  have hsorted : tree.Sorted := by
    rw [htree]
    apply FileTree.Sorted.directory (by decide +kernel)
    simp only [List.forall_mem_cons]
    exact ⟨hsingle "a.css", hsingle ".a.CSS", .file _, by simp⟩
  have hread : ∀ file ∈ tree.files, Path.isTooLong (Path.descend "site" file.1) = false := by
    rw [htree]
    decide +kernel
  obtain ⟨view, hsite, hgone⟩ : ∃ view : FileView,
      view "site" = .ok tree ∧ view "" = .error .notFound :=
    ⟨fun path => if path = "site" then .ok tree else .error .notFound, if_pos rfl, rfl⟩
  refine ⟨view, tree, htree, hsite, hsorted, (scanDirectory_reports {} view "").1 _ hgone, ?_⟩
  obtain ⟨found, hpairwise, hfound, hvalue⟩ :=
    (scanDirectory_reports {} view "site").2 tree hsite hsorted
      fun names content hat => hread _ ((FileTree.mem_files_iff hsorted).mpr hat)
  refine ⟨found, hpairwise, (hfound _ _).mpr ?_, ?_, ?_, hvalue⟩
  · constructor
    case file => exact ⟨.empty, by rw [htree]; rfl, by decide +kernel⟩
    case directories => decide
    case extension => exact ⟨"css", by decide, by decide +kernel⟩
  · intro css hmem
    have hdirectories := ((hfound _ _).mp hmem).directories ".git" (by simp)
    exact hdirectories.1 rfl
  · intro css hmem
    obtain ⟨content, hat, htext⟩ := ((hfound _ _).mp hmem).file
    rw [htree] at hat
    cases hat
    contradiction

end ContrastLint
