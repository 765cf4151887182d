import DailyBars.Dataset
import Mathlib

/-!
# What stays among files

Opening a store and writing to it adds to files: directories and an empty store where nothing was,
and bars where a store is. **Directories stay, and so do files with something in them**
(`Files.Keeps`), however the operation ends. A path is walked over directories, so it leads to the
same place afterwards (`Files.Keeps.lookup?_eq_some`).

An empty file is left out: it counts as a store that was never written, and becomes one.
-/

namespace DailyBars

/-- Nothing writes over a directory, or over a file that is not empty. -/
def Node.IsSettled : Node → Prop
  | .directory => True
  | .file content => content ≠ []
  | .store _ => False

namespace Files

variable {files next later : Files} {location start : Location} {node : Node}

/-! ### Nodes -/

theorem node?_put (files : Files) (location other : Location) (node : Node) :
    (files.put location node).node? other =
      if isAbove other then some .directory
      else if other = location then some node else files.node? other := by
  rw [node?]
  split
  · rfl
  · rename_i habove
    rw [put, List.find?_cons]
    by_cases hother : other = location
    · rw [if_pos hother, hother, beq_self_eq_true]
      rfl
    · have hfilter : (files.nodes.filter fun entry ↦ entry.1 != location).find?
          (fun entry ↦ entry.1 == other) = files.nodes.find? fun entry ↦ entry.1 == other := by
        rw [List.find?_filter]
        refine congrArg (fun test ↦ files.nodes.find? test) (funext fun entry ↦ ?_)
        by_cases hentry : entry.1 = other
        · simp [hentry, hother]
        · simp [hentry]
      rw [if_neg hother, beq_false_of_ne (Ne.symm hother), hfilter, node?, if_neg habove]

theorem isDirectory_iff : files.isDirectory location = true ↔
    files.node? location = some .directory := by
  rw [isDirectory]
  split
  · rename_i heq
    exact iff_of_true rfl heq
  · rename_i hnot
    exact iff_of_false Bool.false_ne_true fun heq ↦ hnot heq

/-- What is a file or a store lies below where the program runs. -/
theorem isAbove_eq_false (h : files.node? location = some node) (hnode : node ≠ .directory) :
    isAbove location = false := by
  cases habove : isAbove location with
  | false => rfl
  | true =>
    rw [node?, if_pos habove] at h
    exact absurd (Option.some_inj.1 h).symm hnode

/-! ### Keeping -/

/-- Directories stay directories, and files with something in them stay as they are. -/
def Keeps (files next : Files) : Prop :=
  ∀ location node, files.node? location = some node → node.IsSettled →
    next.node? location = some node

theorem Keeps.refl (files : Files) : files.Keeps files :=
  fun _ _ h _ ↦ h

theorem Keeps.trans (h : files.Keeps next) (h' : next.Keeps later) : files.Keeps later :=
  fun location node hnode hsettled ↦ h' location node (h location node hnode hsettled) hsettled

theorem keeps_of_nodes_eq (h : next.nodes = files.nodes) : files.Keeps next := by
  intro location node hnode _
  rwa [node?, h, ← node?]

/-- What is not settled may be written over. -/
theorem keeps_put (h : ∀ old, files.node? location = some old → ¬old.IsSettled) :
    files.Keeps (files.put location node) := by
  intro other old hold hsettled
  have hother : other ≠ location := by
    rintro rfl
    exact h old hold hsettled
  rw [node?_put, if_neg hother]
  split
  · rename_i habove
    rwa [node?, if_pos habove] at hold
  · exact hold

theorem Keeps.isDirectory (h : files.Keeps next) (hdirectory : files.isDirectory location = true) :
    next.isDirectory location = true :=
  isDirectory_iff.2 (h _ _ (isDirectory_iff.1 hdirectory) True.intro)

theorem walk_congr (h : ∀ location, next.isDirectory location = files.isDirectory location)
    (start : Location) (components : List String) :
    next.walk start components = files.walk start components := by
  induction components generalizing start with
  | nil => rfl
  | cons component rest ih => rw [walk, walk, h, ih]

theorem isDirectory_congr (h : ∀ location, next.node? location = files.node? location)
    (location : Location) : next.isDirectory location = files.isDirectory location := by
  rw [isDirectory, isDirectory, h]

theorem locate?_congr (h : ∀ location, next.node? location = files.node? location)
    (path : String) : next.locate? path = files.locate? path := by
  have hwalk := walk_congr (isDirectory_congr h) (parts path).1 (parts path).2
  rw [locate?, locate?]
  dsimp only
  rw [hwalk]

/-- What a path leads to depends on the nodes alone. -/
theorem lookup?_congr (h : ∀ location, next.node? location = files.node? location)
    (path : String) : next.lookup? path = files.lookup? path := by
  rw [lookup?, lookup?, locate?_congr h]
  exact congrArg _ (funext h)

/-- **A walk is the same where all directories have stayed.** -/
theorem walk_eq_some
    (h : ∀ location, files.isDirectory location = true → next.isDirectory location = true)
    {components : List String} (hwalk : files.walk start components = some location) :
    next.walk start components = some location := by
  induction components generalizing start with
  | nil => exact hwalk
  | cons component rest ih =>
    rw [walk] at hwalk ⊢
    split at hwalk
    · rename_i hdirectory
      rw [if_pos (h start hdirectory)]
      exact ih hwalk
    · cases hwalk

theorem locate?_eq_some
    (h : ∀ location, files.isDirectory location = true → next.isDirectory location = true)
    {path : String} (hlocate : files.locate? path = some location) :
    next.locate? path = some location := by
  rw [locate?] at hlocate ⊢
  split at hlocate
  · rename_i hpath
    rw [if_pos hpath]
    exact walk_eq_some h hlocate
  · cases hlocate

/-- **A path leads to the same directory or file**, if that is not empty. -/
theorem Keeps.lookup?_eq_some (h : files.Keeps next) {path : String}
    (hlookup : files.lookup? path = some node) (hsettled : node.IsSettled) :
    next.lookup? path = some node := by
  obtain ⟨location, hlocate, hnode⟩ := Option.bind_eq_some_iff.1 hlookup
  rw [lookup?, locate?_eq_some (fun _ ↦ h.isDirectory) hlocate]
  exact h location node hnode hsettled

/-! ### Making directories -/

theorem keeps_makeAlong (files : Files) (location : Location) (components : List String) :
    files.Keeps (files.makeAlong location components).2 := by
  induction components generalizing files location with
  | nil => exact .refl files
  | cons component rest ih =>
    rw [makeAlong]
    split
    · exact ih files _
    · exact .refl files
    · rename_i hnone
      split
      · refine Keeps.trans (keeps_put fun old hold ↦ ?_) (ih _ _)
        rw [hnone] at hold
        cases hold
      · exact .refl files

theorem keeps_makeParents (files : Files) (path : String) :
    files.Keeps (files.makeParents path).2 := by
  rw [makeParents]
  split
  · exact files.keeps_makeAlong _ _
  · exact .refl files

/-! ### Stores -/

/-- The node of a store, if a file holds it, is not settled. -/
theorem not_isSettled_of_storeAt? (h : files.storeAt? (.file location) ≠ none) :
    ∀ old, files.node? location = some old → ¬old.IsSettled := by
  intro old hold hsettled
  rw [storeAt?, hold] at h
  cases old with
  | directory => exact h rfl
  | file content =>
    cases content with
    | nil => exact hsettled rfl
    | cons => exact h rfl
  | store => exact hsettled

theorem keeps_putStore {home : StoreHome} (h : files.storeAt? home ≠ none) (store : Store) :
    files.Keeps (files.putStore home store) := by
  cases home with
  | file location => exact keeps_put (not_isSettled_of_storeAt? h)
  | memory number => exact keeps_of_nodes_eq rfl
  | named name => exact keeps_of_nodes_eq rfl

theorem keeps_join? (files : Files) (home : StoreHome) (isReadOnly : Bool) :
    files.Keeps (files.join? home isReadOnly).2 := by
  rw [join?]
  split
  · exact .refl files
  · exact keeps_of_nodes_eq rfl

theorem keeps_of_join? {home : StoreHome} {isReadOnly : Bool} {opened : OpenStore}
    (h : files.join? home isReadOnly = (opened, next)) : files.Keeps next := by
  have hkeeps := files.keeps_join? home isReadOnly
  rwa [h] at hkeeps

theorem keeps_openFile {address : StoreAddress} {path : String} {opened : OpenStore}
    (h : files.openFile address path = .ok (opened, next)) : files.Keeps next := by
  have hopened : ∀ {made : Files} {home : StoreHome}, files.Keeps made →
      .ok (if address.isShared then made.join? home address.isReadOnly
        else (⟨home, address.isReadOnly⟩, made)) =
        (.ok (opened, next) : Except OpenFault (OpenStore × Files)) → files.Keeps next := by
    intro made home hmade hresult
    split at hresult
    · exact hmade.trans (keeps_of_join? (Except.ok.inj hresult))
    · have hnext : made = next := congrArg Prod.snd (Except.ok.inj hresult)
      rwa [← hnext]
  rw [openFile] at h
  split at h
  · cases h
  · rename_i location _
    dsimp only at h
    split at h
    · cases h
    · exact hopened (.refl files) h
    · rename_i hnone
      split at h
      · refine hopened (keeps_put fun old hold ↦ ?_) h
        rw [hnone] at hold
        cases hold
      · cases h

theorem keeps_openAt {access : Access} {text : String} {opened : OpenStore}
    (h : files.openAt access text = .ok (opened, next)) : files.Keeps next := by
  rw [openAt] at h
  split at h
  · cases h
  · split at h
    · exact keeps_openFile h
    · exact keeps_of_join? (Except.ok.inj h)
    · exact keeps_of_join? (Except.ok.inj h)

theorem keeps_prepare (opened : OpenStore) (files : Files) :
    files.Keeps (prepare opened files).2 := by
  rw [prepare]
  split
  · exact .refl files
  · exact .refl files
  · rename_i hstore
    split
    · exact .refl files
    · refine keeps_putStore ?_ .empty
      rw [hstore]
      exact Option.some_ne_none _

/-- The held store of a home after its store is replaced. -/
theorem held?_replace {home : StoreHome} {held : HeldStore} (store : Store)
    (h : files.held? home = some held) :
    (⟨files.nodes, files.held.map fun held ↦
      if held.home = home then { held with store := some store } else held⟩ : Files).held? home =
        some { held with store := some store } := by
  have htest : ∀ held : HeldStore, (((if held.home = home then
      { held with store := some store } else held : HeldStore).home) == home) =
        (held.home == home) := by
    intro held
    split <;> rfl
  rw [held?] at h ⊢
  have hhome : held.home = home := eq_of_beq (List.find?_some h :)
  dsimp only
  rw [List.find?_map]
  simp only [Function.comp_def, htest]
  rw [h, Option.map_some, if_pos hhome]

/-- A store that is put somewhere is there. -/
theorem storeAt?_putStore {home : StoreHome} (h : files.storeAt? home ≠ none) (store : Store) :
    (files.putStore home store).storeAt? home = some (some store) := by
  cases home with
  | file location =>
    have hnode : files.node? location ≠ none := by
      intro hnone
      rw [storeAt?, hnone] at h
      exact h rfl
    obtain ⟨node, hnode⟩ := Option.ne_none_iff_exists'.1 hnode
    have habove : isAbove location = false := isAbove_eq_false hnode fun heq ↦ by
      rw [storeAt?, hnode, heq] at h
      exact h rfl
    rw [putStore, storeAt?, node?_put, if_neg (by rw [habove]; exact Bool.false_ne_true),
      if_pos rfl]
  | memory number =>
    obtain ⟨held, hheld⟩ :=
      Option.ne_none_iff_exists'.1 fun hnone ↦ h (Option.map_eq_none_iff.2 hnone)
    exact congrArg (Option.map (·.store)) (held?_replace store hheld)
  | named name =>
    obtain ⟨held, hheld⟩ :=
      Option.ne_none_iff_exists'.1 fun hnone ↦ h (Option.map_eq_none_iff.2 hnone)
    exact congrArg (Option.map (·.store)) (held?_replace store hheld)

/-- A store that is prepared can be put back. -/
theorem storeAt?_prepare {opened other : OpenStore}
    (h : prepare opened files = (.ok other, next)) : next.storeAt? other.home ≠ none := by
  rw [prepare] at h
  split at h
  · cases h
  · rename_i hstore
    cases h
    rw [hstore]
    exact Option.some_ne_none _
  · rename_i hstore
    split at h
    · cases h
    · cases h
      rw [storeAt?_putStore]
      · exact Option.some_ne_none _
      · rw [hstore]
        exact Option.some_ne_none _

/-- **Opening a store for writing keeps what is there**, whether or not it succeeds. -/
theorem keeps_openStore (files : Files) (path : String) :
    files.Keeps (files.openStore path).2 := by
  rw [openStore]
  split
  · rename_i hopen
    exact (keeps_openAt hopen).trans (keeps_prepare _ _)
  · exact .refl files
  · have hparents := files.keeps_makeParents path
    split
    · rename_i hmade
      rw [hmade] at hparents
      exact hparents
    · rename_i hmade
      rw [hmade] at hparents
      split
      · rename_i hopen
        exact (hparents.trans (keeps_openAt hopen)).trans (keeps_prepare _ _)
      · exact hparents

/-- An open store can be put back where it was opened. -/
theorem storeAt?_of_openStore {path : String} {opened : OpenStore}
    (h : files.openStore path = (.ok opened, next)) : next.storeAt? opened.home ≠ none := by
  rw [openStore] at h
  split at h
  · exact storeAt?_prepare h
  · cases h
  · split at h
    · cases h
    · split at h
      · exact storeAt?_prepare h
      · cases h

theorem keeps_save {opened : OpenStore} (h : files.storeAt? opened.home ≠ none)
    (archive : Archive) : files.Keeps (files.save opened archive) := by
  rw [save]
  split
  · exact .refl files
  · exact keeps_putStore h archive.store

theorem keeps_release (files : Files) (opened : List OpenStore) :
    files.Keeps (files.release opened) :=
  keeps_of_nodes_eq rfl

theorem lookup?_release (files : Files) (opened : List OpenStore) (path : String) :
    (files.release opened).lookup? path = files.lookup? path := by
  have hnode : ∀ location, (files.release opened).node? location = files.node? location :=
    fun _ ↦ rfl
  exact lookup?_congr hnode path

end Files

namespace Dataset

variable {dataset : Dataset} {start stop : Day}

theorem keeps_openWriter (dataset : Dataset) (start stop : Day) (files : Files) :
    files.Keeps (dataset.openWriter start stop files).2 := by
  have hkeeps := files.keeps_openStore dataset.config.database
  rw [openWriter]
  split
  · rename_i heq
    rwa [heq] at hkeeps
  · rename_i heq
    rwa [heq] at hkeeps

theorem storeAt?_of_openWriter {writer : Writer} {opened : OpenStore} {files next : Files}
    (h : dataset.openWriter start stop files = (.ok (writer, opened), next)) :
    next.storeAt? opened.home ≠ none := by
  rw [openWriter] at h
  split at h
  · cases h
  · rename_i heq
    obtain ⟨hresult, rfl⟩ := Prod.mk.inj h
    cases hbounds : Writer.ofBounds dataset.calendar start stop with
    | error => rw [hbounds] at hresult; cases hresult
    | ok =>
      rw [hbounds] at hresult
      cases hresult
      exact Files.storeAt?_of_openStore heq

end Dataset

end DailyBars
