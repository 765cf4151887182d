import DailyBars.Calendar.SessionFile
import DailyBars.Reader
import DailyBars.Store.Access
import DailyBars.Writer

/-!
# Datasets

A dataset is a configuration with the calendar it names. Readers and writers of one dataset share
a cache; the store itself is a file, and every dataset with the same path sees the same bars.
-/

namespace DailyBars

/-- A configuration and its calendar. -/
structure Dataset where
  config : Config
  calendar : Calendar

namespace Dataset

/-- The dataset of a configuration. -/
def ofConfig (files : Files) (config : Config) : Except StoreError Dataset :=
  match config.calendar.resolve files with
  | .ok calendar => .ok ⟨config, calendar⟩
  | .error error => .error (.calendar error)

/-- Makes the store if it is not there. -/
def init (dataset : Dataset) (files : Files) : Except StoreError Unit × Files :=
  let (opened, files) := files.openStore dataset.config.database
  (opened.map fun _ ↦ (), files)

/-- A writer for a range of sessions, with its store; that is made if it is not there, even if the
range is refused. -/
def openWriter (dataset : Dataset) (start stop : Day) (files : Files) :
    Except StoreError (Writer × OpenStore) × Files :=
  match files.openStore dataset.config.database with
  | (.error error, files) => (.error error, files)
  | (.ok opened, files) =>
    ((Writer.ofBounds dataset.calendar start stop).map fun writer ↦ (writer, opened), files)

/-- The store opened for reading; it has to be there. -/
def openForReading (dataset : Dataset) (files : Files) : Except StoreError OpenStore × Files :=
  files.openForReading dataset.config.database

/-- A reader of an open store. -/
def reader (dataset : Dataset) (files : Files) (opened : OpenStore) : Reader :=
  ⟨files.storeOf opened.home, dataset.calendar, dataset.config.readAllThreshold⟩

end Dataset

namespace Files

/-- An open store and a cache as one archive. -/
def archive (files : Files) (opened : OpenStore) (cache : Cache) : Archive :=
  ⟨files.storeOf opened.home, cache, opened.isReadOnly⟩

/-- The files with the store of an archive. -/
def save (files : Files) (opened : OpenStore) (archive : Archive) : Files :=
  if opened.isReadOnly then files else files.putStore opened.home archive.store

end Files

end DailyBars
