/-
# Downloading the binaries of all architectures

`download_files.py` collects the zips of the three architectures for the universal
zip. It waits for the release, then runs one task for each architecture in a pool.
A task polls the list of assets until its zip is there, fetches and unpacks it.

The pool keeps the exception of a task until somebody asks for the task's result.
The script never does: it maps the tasks over the architectures and waits for them
to end. So a task that fails ends like one that succeeds, also when it fails with
`sys.exit`, and the exit status tells only that every task has ended.

A run is given by what its threads meet, in any interleaving: operations that
succeed, with the responses to their requests, and exceptions.
-/

import BbBot.Unix.Text

namespace BbBot.Build

open BbBot.Unix

/-! ## Replies -/

/-- A value of a response body. -/
inductive Json
  | null
  | bool (value : Bool)
  | number (value : ℤ)
  | string (text : Str)
  | list (items : List Json)
  | object (fields : List (Str × Json))

namespace Json

/-- `value[key]`, which raises unless the value is an object with that key. -/
def get (key : String) : Json → Option Json
  -- Of two fields with one key, Python keeps the later one.
  | .object fields => (fields.reverse.find? fun field => field.1 == key.toList).map Prod.snd
  | _ => none

/-- `for item in value`: the keys of an object and the characters of a string. Other
values raise. -/
def iterate : Json → Option (List Json)
  | .list items => some items
  | .object fields => some (fields.map fun field => .string field.1)
  | .string text => some (text.map fun c => .string [c])
  | _ => none

end Json

/-- The members of a zip, with their contents. -/
abbrev Archive := List (Str × Str)

/-- What a request ends with: a status code, the value that `json` decodes, when it
does, and the zip that the content is, when it is one. -/
structure Response where
  status : ℕ
  json : Option Json
  content : Option Archive

/-! ## One task -/

/-- `archs` -/
inductive Arch
  | arm
  | x86
  | mips
  deriving DecidableEq

def Arch.name : Arch → Str
  | .arm => "ARM".toList
  | .x86 => "X86".toList
  | .mips => "MIPS".toList

def archs : List Arch := [.arm, .x86, .mips]

/-- The file of an architecture. -/
def assetName (ver : Str) (arch : Arch) : Str :=
  "Busybox-".toList ++ ver ++ "-".toList ++ arch.name ++ ".zip".toList

/-- The outcome of looking through the assets. -/
inductive Search
  | found
  | absent
  | raised
  deriving DecidableEq

/-- `for asset in …: if asset['name'] == file: asset_url = asset['url']; break` -/
def search (file : Str) : List Json → Search
  | [] => .absent
  | asset :: rest =>
    match asset.get "name" with
    | none => .raised
    | some (.string name) =>
      -- `break` leaves the rest of the list unread.
      if name = file then if (asset.get "url").isSome then .found else .raised
      else search file rest
    | some _ => search file rest

/-- One reply to the polling loop. The status code is not looked at. -/
def lookFor (file : Str) (response : Response) : Search :=
  match response.json.bind Json.iterate with
  | none => .raised
  | some assets => search file assets

/-- The members that are extracted. -/
def isWanted (name : Str) : Bool :=
  !decide ("META-INF".toList <:+: name) && !decide (".sh".toList <:+: name)

/-- The members of a zip that are extracted. -/
def wanted (archive : Archive) : Archive := archive.filter fun member => isWanted member.1

/-- How an operation of a task ends. A request that succeeds has a response. -/
inductive Event
  | success (response : Response)
  | exception

/-- Where a task is. -/
inductive Phase
  | looking
  | fetching
  | redirected
  | saving (content : Option Archive)
  | opening (content : Option Archive)
  | extracting (member : Str × Str) (rest : Archive)
  | removing
  | done
  | failed

/-- A task, with the content it fetched and the members it extracted. -/
structure Task where
  phase : Phase
  fetched : Option (Option Archive)
  extracted : Archive

/-- A task that was submitted. -/
def Task.start : Task := ⟨.looking, none, []⟩

/-- The task raises. The pool catches whatever it is, `SystemExit` included. -/
def Task.fail (task : Task) : Task := { task with phase := .failed }

/-- The status of the downloaded file: everything but 200 ends in `sys.exit()`. -/
def Task.receive (task : Task) (response : Response) : Task :=
  if response.status = 200 then
    { task with phase := .saving response.content, fetched := some response.content }
  else task.fail

/-- The next member to extract, or the end of the `with` block. -/
def Task.extract (task : Task) : Archive → Task
  -- `remove(file)` comes after the `with` block, whatever was in the zip.
  | [] => { task with phase := .removing }
  | member :: rest => { task with phase := .extracting member rest }

/-- An operation of the task succeeds. -/
def Task.advance (file : Str) (task : Task) (response : Response) : Task :=
  match task.phase with
  | .looking =>
    match lookFor file response with
    | .found => { task with phase := .fetching }
    | .absent => task
    | .raised => task.fail
  | .fetching =>
    -- A redirect is followed once, by a second request.
    if response.status = 302 then { task with phase := .redirected } else task.receive response
  | .redirected => task.receive response
  | .saving content => { task with phase := .opening content }
  | .opening none => task.fail
  | .opening (some archive) => task.extract (wanted archive)
  | .extracting member rest => { task with extracted := task.extracted ++ [member] }.extract rest
  | .removing => { task with phase := .done }
  | .done => task
  | .failed => task

/-- The task has returned or raised. -/
def Task.settled (task : Task) : Bool :=
  match task.phase with
  | .done => true
  | .failed => true
  | _ => false

/-- One event of a task that has not ended. -/
def Task.step (file : Str) (task : Task) (event : Event) : Task :=
  if task.settled then task
  else
    match event with
    | .success response => task.advance file response
    | .exception => task.fail

/-- `download(arch)` -/
def download (file : Str) (task : Task) (events : List Event) : Task :=
  events.foldl (Task.step file) task

/-! ## The script -/

/-- What the main thread meets while it looks for the tag. -/
inductive TagEvent
  | reply (response : Response)
  | exception

/-- Where the main thread is. -/
inductive Main
  | polling
  | mapping
  | crashed
  deriving DecidableEq

/-- One round of the loop, and `url = data['url'] + '/assets'` after it. -/
def Main.step (main : Main) (event : TagEvent) : Main :=
  match main, event with
  -- An exception of the main thread is not caught by anybody.
  | .polling, .exception => .crashed
  | .polling, .reply response =>
    match response.json with
    | none => .crashed
    | some data =>
      if response.status = 200 then
        match data.get "url" with
        | some (.string _) => .mapping
        | _ => .crashed
      else .polling
  | _, _ => main

/-- The tasks of the pool, each with its own events. -/
def pool (ver : Str) (tasks : Arch → Task) : List (Arch × Event) → Arch → Task
  | [] => tasks
  | (arch, event) :: events =>
    pool ver (Function.update tasks arch ((tasks arch).step (assetName ver arch) event)) events

/-- The tasks after a run of the script's threads. -/
def tasksAfter (ver : Str) (events : List (Arch × Event)) : Arch → Task :=
  pool ver (fun _ => Task.start) events

/-- The exit status of the script, when it has terminated. Leaving the `with` block
waits for the tasks and does not ask for their results. -/
def exitStatus (ver : Str) (tagEvents : List TagEvent) (events : List (Arch × Event)) :
    Option ℕ :=
  match tagEvents.foldl Main.step .polling with
  | .polling => none
  | .crashed => some 1
  | .mapping => if archs.all fun arch => (tasksAfter ver events arch).settled then some 0 else none

/-! ## What a task achieves -/

/-- The asset was fetched with status 200 and its wanted members are extracted. -/
def Task.Complete (task : Task) : Prop :=
  ∃ archive, task.fetched = some (some archive) ∧ task.extracted = wanted archive

/-- A download that ends with status 200 and a zip, perhaps after a redirect. -/
inductive Delivered (archive : Archive) : List Event → Prop
  | direct (response : Response) (ok : response.status = 200)
      (content : response.content = some archive) : Delivered archive [.success response]
  | redirected (first response : Response) (moved : first.status = 302)
      (ok : response.status = 200) (content : response.content = some archive) :
      Delivered archive [.success first, .success response]

/-- The operations between the download and the last extracted member: saving and
opening the zip, and each member. -/
def operations (archive : Archive) : ℕ :=
  if wanted archive = [] then 0 else (wanted archive).length + 2

/-- The next operations all succeed. -/
def Succeed : ℕ → List Event → Prop
  | 0, _ => True
  | n + 1, .success _ :: events => Succeed n events
  | _ + 1, _ => False

/-- The task polls lists without its asset until one has it, the download ends with a
zip, and no exception comes before the last member. -/
def Served (file : Str) (events : List Event) : Prop :=
  ∃ (polls : List Response) (hit : Response) (fetch : List Event) (archive : Archive)
    (rest : List Event),
    events = polls.map Event.success ++ .success hit :: (fetch ++ rest) ∧
    (∀ poll ∈ polls, lookFor file poll = .absent) ∧ lookFor file hit = .found ∧
    Delivered archive fetch ∧ Succeed (operations archive) rest

section Task

variable (file : Str)

@[simp] theorem download_nil (task : Task) : download file task [] = task := rfl

theorem download_cons (task : Task) (event : Event) (events : List Event) :
    download file task (event :: events) = download file (task.step file event) events := rfl

/-- A task that has ended stays as it is. -/
theorem download_settled {task : Task} (ended : task.settled = true) (events : List Event) :
    download file task events = task := by
  induction events with
  | nil => rfl
  | cons event events ih =>
    -- A thread that has returned gets no further events.
    have same : task.step file event = task := by simp [Task.step, ended]
    rw [download_cons, same, ih]

theorem download_exception {task : Task} (running : task.settled = false)
    (events : List Event) : download file task (.exception :: events) = task.fail := by
  rw [download_cons, Task.step, if_neg (by simp [running])]
  exact download_settled file rfl events

theorem download_success {task : Task} (running : task.settled = false) (response : Response)
    (events : List Event) : download file task (.success response :: events) =
      download file (task.advance file response) events := by
  rw [download_cons, Task.step, if_neg (by simp [running])]

/-- Removing the zip changes nothing of what was achieved. -/
theorem download_removing (fetched : Option (Option Archive)) (extracted : Archive)
    (events : List Event) :
    (download file ⟨.removing, fetched, extracted⟩ events).fetched = fetched ∧
      (download file ⟨.removing, fetched, extracted⟩ events).extracted = extracted := by
  cases events with
  | nil => exact ⟨rfl, rfl⟩
  | cons event events =>
    cases event with
    | exception =>
      rw [download_exception file rfl]
      exact ⟨rfl, rfl⟩
    | success response =>
      rw [download_success file rfl, download_settled file (by rfl)]
      exact ⟨rfl, rfl⟩

/-- The members are all extracted exactly when their operations all succeed. -/
theorem download_extracting (fetched : Option (Option Archive)) (extracted rest : Archive)
    (member : Str × Str) (events : List Event) :
    (download file ⟨.extracting member rest, fetched, extracted⟩ events).fetched = fetched ∧
      ((download file ⟨.extracting member rest, fetched, extracted⟩ events).extracted =
        extracted ++ member :: rest ↔ Succeed (rest.length + 1) events) := by
  induction events generalizing extracted member rest with
  | nil => exact ⟨rfl, by simp [Succeed]⟩
  | cons event events ih =>
    cases event with
    | exception =>
      rw [download_exception file rfl]
      exact ⟨rfl, by simp [Task.fail, Succeed]⟩
    | success response =>
      rw [download_success file rfl, Succeed]
      cases rest with
      | nil =>
        -- The last member: everything that was wanted is extracted now.
        obtain ⟨same, all⟩ := download_removing file fetched (extracted ++ [member]) events
        exact ⟨same, by simp [Task.advance, Task.extract, all, Succeed]⟩
      | cons next rest =>
        -- One member is done, and the others are as many operations.
        have onwards := ih (extracted ++ [member]) rest next
        rw [List.append_assoc, List.singleton_append] at onwards
        exact onwards

omit file in
/-- Without an operation that succeeds, only a zip without wanted members is done. -/
private theorem nothing_extracted_iff (archive : Archive) {later : Prop} (never : ¬ later) :
    [] = wanted archive ↔ wanted archive = [] ∨ later := by
  constructor
  · intro same
    exact Or.inl same.symm
  · rintro (none | impossible)
    · exact none.symm
    · exact absurd impossible never

omit file in
theorem succeed_operations_iff (archive : Archive) (events : List Event) :
    Succeed (operations archive) events ↔
      wanted archive = [] ∨ Succeed ((wanted archive).length + 2) events := by
  rw [operations]
  split
  · rename_i none
    exact ⟨fun _ => Or.inl none, fun _ => trivial⟩
  · rename_i some
    exact ⟨Or.inr, fun h => h.resolve_left some⟩

/-- Opening the zip: a file that is none ends the task. -/
theorem download_opening (content : Option Archive) (events : List Event) :
    (download file ⟨.opening content, some content, []⟩ events).fetched = some content ∧
      ∀ archive, content = some archive →
        ((download file ⟨.opening content, some content, []⟩ events).extracted =
            wanted archive ↔
          wanted archive = [] ∨ Succeed ((wanted archive).length + 1) events) := by
  cases events with
  | nil => exact ⟨rfl, fun archive _ => nothing_extracted_iff archive (by simp [Succeed])⟩
  | cons event events =>
    cases event with
    | exception =>
      rw [download_exception file rfl]
      exact ⟨rfl, fun archive _ => nothing_extracted_iff archive (by simp [Succeed])⟩
    | success response =>
      rw [download_success file rfl]
      cases content with
      | none =>
        -- `ZipFile` raises on a file that is no zip.
        have fails : Task.advance file ⟨.opening none, some none, []⟩ response =
            Task.fail ⟨.opening none, some none, []⟩ := rfl
        rw [fails, download_settled file rfl]
        exact ⟨rfl, fun archive impossible => absurd impossible (by simp)⟩
      | some archive =>
        have opens : Task.advance file ⟨.opening (some archive), some (some archive), []⟩
              response =
            Task.extract ⟨.opening (some archive), some (some archive), []⟩ (wanted archive) := rfl
        rw [opens]
        cases members : wanted archive with
        | nil =>
          obtain ⟨same, none⟩ := download_removing file (some (some archive)) [] events
          refine ⟨same, ?_⟩
          intro other isZip
          obtain rfl := Option.some.inj isZip
          simp [members, Task.extract, none]
        | cons member rest =>
          obtain ⟨same, all⟩ :=
            download_extracting file (some (some archive)) [] rest member events
          refine ⟨same, ?_⟩
          intro other isZip
          obtain rfl := Option.some.inj isZip
          rw [members, Succeed, List.length_cons]
          simpa [Task.extract] using all

/-- From a received file on, the task is complete exactly when the file is a zip and
the operations up to its last member succeed. -/
theorem download_saving_complete_iff (content : Option Archive) (events : List Event) :
    (download file ⟨.saving content, some content, []⟩ events).Complete ↔
      ∃ archive, content = some archive ∧ Succeed (operations archive) events := by
  have saved : (download file ⟨.saving content, some content, []⟩ events).fetched =
        some content ∧
      ∀ archive, content = some archive →
        ((download file ⟨.saving content, some content, []⟩ events).extracted =
            wanted archive ↔ Succeed (operations archive) events) := by
    simp only [succeed_operations_iff]
    cases events with
    | nil => exact ⟨rfl, fun archive _ => nothing_extracted_iff archive (by simp [Succeed])⟩
    | cons event events =>
      cases event with
      | exception =>
        rw [download_exception file rfl]
        exact ⟨rfl, fun archive _ => nothing_extracted_iff archive (by simp [Succeed])⟩
      | success response =>
        rw [download_success file rfl]
        exact download_opening file content events
  obtain ⟨fetched, all⟩ := saved
  constructor
  · rintro ⟨archive, same, extracted⟩
    rw [fetched] at same
    have isZip := Option.some.inj same
    exact ⟨archive, isZip, (all archive isZip).mp extracted⟩
  · rintro ⟨archive, isZip, succeed⟩
    exact ⟨archive, isZip ▸ fetched, (all archive isZip).mpr succeed⟩

/-- A task that fails before it has received anything is not complete. -/
theorem not_complete_fail (phase : Phase) : ¬ (Task.fail ⟨phase, none, []⟩).Complete := by
  rintro ⟨archive, impossible, -⟩
  exact absurd impossible (by simp [Task.fail])

theorem not_complete_nil (phase : Phase) :
    ¬ (download file ⟨phase, none, []⟩ []).Complete := by
  rintro ⟨archive, impossible, -⟩
  exact absurd impossible (by simp)

theorem download_receive_iff (phase : Phase) (response : Response) (events : List Event) :
    (download file (Task.receive ⟨phase, none, []⟩ response) events).Complete ↔
      response.status = 200 ∧
        ∃ archive, response.content = some archive ∧ Succeed (operations archive) events := by
  by_cases ok : response.status = 200
  · rw [Task.receive, if_pos ok]
    exact (download_saving_complete_iff file response.content events).trans (by simp [ok])
  · rw [Task.receive, if_neg ok, download_settled file rfl]
    simp [not_complete_fail, ok]

theorem download_fetching_iff (events : List Event) :
    (download file ⟨.fetching, none, []⟩ events).Complete ↔
      ∃ fetch archive rest, events = fetch ++ rest ∧ Delivered archive fetch ∧
        Succeed (operations archive) rest := by
  constructor
  · intro complete
    match events with
    | [] => exact absurd complete (not_complete_nil file _)
    | .exception :: events =>
      rw [download_exception file rfl] at complete
      exact absurd complete (not_complete_fail _)
    | .success response :: events =>
      rw [download_success file rfl, Task.advance] at complete
      -- The reply is a redirect with a second request, or the file itself.
      split_ifs at complete with moved
      · match events with
        | [] => exact absurd complete (not_complete_nil file _)
        | .exception :: events =>
          rw [download_exception file rfl] at complete
          exact absurd complete (not_complete_fail _)
        | .success second :: events =>
          rw [download_success file rfl, Task.advance, download_receive_iff] at complete
          obtain ⟨ok, archive, content, succeed⟩ := complete
          exact ⟨_, archive, events, rfl, .redirected response second moved ok content, succeed⟩
      · rw [download_receive_iff] at complete
        obtain ⟨ok, archive, content, succeed⟩ := complete
        exact ⟨_, archive, events, rfl, .direct response ok content, succeed⟩
  · rintro ⟨fetch, archive, rest, rfl, delivered, succeed⟩
    cases delivered with
    | direct response ok content =>
      rw [List.singleton_append, download_success file rfl, Task.advance,
        if_neg (by rw [ok]; decide), download_receive_iff]
      exact ⟨ok, archive, content, succeed⟩
    | redirected first response moved ok content =>
      rw [List.cons_append, List.singleton_append, download_success file rfl, Task.advance,
        if_pos moved, download_success file rfl, Task.advance, download_receive_iff]
      exact ⟨ok, archive, content, succeed⟩

/-- A task is complete exactly when it was served. -/
theorem download_complete_iff (events : List Event) :
    (download file Task.start events).Complete ↔ Served file events := by
  constructor
  · intro complete
    induction events with
    | nil => exact absurd complete (not_complete_nil file _)
    | cons event events ih =>
      cases event with
      | exception =>
        rw [download_exception file rfl] at complete
        exact absurd complete (not_complete_fail _)
      | success response =>
        rw [download_success file rfl, Task.start, Task.advance] at complete
        cases looked : lookFor file response with
        | raised =>
          rw [looked] at complete
          rw [download_settled file (by rfl)] at complete
          exact absurd complete (not_complete_fail _)
        | absent =>
          rw [looked] at complete
          obtain ⟨polls, hit, fetch, archive, rest, rfl, misses, found, delivered, succeed⟩ :=
            ih complete
          -- One more list without the asset.
          refine ⟨response :: polls, hit, fetch, archive, rest, rfl, ?_, found, delivered,
            succeed⟩
          intro poll member
          rcases List.mem_cons.mp member with rfl | later
          · exact looked
          · exact misses poll later
        | found =>
          rw [looked] at complete
          obtain ⟨fetch, archive, rest, rfl, delivered, succeed⟩ :=
            (download_fetching_iff file events).mp complete
          exact ⟨[], response, fetch, archive, rest, rfl, by simp, looked, delivered, succeed⟩
  · rintro ⟨polls, hit, fetch, archive, rest, rfl, misses, found, delivered, succeed⟩
    induction polls with
    | nil =>
      rw [List.map_nil, List.nil_append, download_success file rfl, Task.start, Task.advance,
        found]
      exact (download_fetching_iff file _).mpr ⟨fetch, archive, rest, rfl, delivered, succeed⟩
    | cons poll polls ih =>
      rw [List.map_cons, List.cons_append, download_success file rfl, Task.start, Task.advance,
        misses poll (by simp)]
      exact ih fun other member => misses other (List.mem_cons_of_mem _ member)

end Task

/-! ## The whole script -/

/-- The events of one architecture's task. -/
def eventsOf (arch : Arch) (events : List (Arch × Event)) : List Event :=
  events.filterMap fun event => if event.1 = arch then some event.2 else none

/-- Whatever the interleaving, a task sees its own events only. -/
theorem pool_eq (ver : Str) (tasks : Arch → Task) (events : List (Arch × Event)) (arch : Arch) :
    pool ver tasks events arch =
      download (assetName ver arch) (tasks arch) (eventsOf arch events) := by
  induction events generalizing tasks with
  | nil => rfl
  | cons event events ih =>
    obtain ⟨other, event⟩ := event
    rw [pool, ih]
    by_cases same : other = arch
    · subst same
      -- An event of this task, or of another one, which leaves it alone.
      have own : eventsOf other ((other, event) :: events) = event :: eventsOf other events := by
        simp [eventsOf]
      rw [Function.update_self, own, download_cons]
    · have foreign : eventsOf arch ((other, event) :: events) = eventsOf arch events := by
        simp [eventsOf, same]
      rw [Function.update_of_ne (fun equal => same equal.symm), foreign]

/-- A script that ends with status 0 has fetched and unpacked the zips of all
architectures exactly when each of its three tasks was served. -/
theorem downloads_complete_iff (ver : Str) (tagEvents : List TagEvent)
    (events : List (Arch × Event)) :
    (exitStatus ver tagEvents events = some 0 →
        ∀ arch, (tasksAfter ver events arch).Complete) ↔
      (exitStatus ver tagEvents events = some 0 →
        ∀ arch, Served (assetName ver arch) (eventsOf arch events)) := by
  have each (arch : Arch) : (tasksAfter ver events arch).Complete ↔
      Served (assetName ver arch) (eventsOf arch events) := by
    rw [tasksAfter, pool_eq]
    exact download_complete_iff (assetName ver arch) (eventsOf arch events)
  apply forall_congr'
  intro _
  exact forall_congr' each

/-- The release, found at once. -/
def release : Response where
  status := 200
  json := some (.object [("url".toList, .string "releases/1".toList)])
  content := none

/-- A list of assets that has the zips of all architectures. -/
def assetList : Response where
  status := 200
  json := some (.list (archs.map fun arch => .object
    [("name".toList, .string (assetName "1.26".toList arch)), ("url".toList, .string "a".toList)]))
  content := none

/-- A request that is refused, with a message in its body. -/
def refused : Response where
  status := 403
  json := some (.object [("message".toList, .string "API rate limit exceeded".toList)])
  content := none

/-- A zip with one member. -/
def zipped : Response where
  status := 200
  json := none
  content := some [("busybox.xz".toList, "BB".toList)]

/-- The events of a task in which everything goes well. -/
def smooth : List Event :=
  [.success assetList, .success zipped, .success zipped, .success zipped, .success zipped,
    .success zipped]

/-- The second task is refused and raises, the script ends with status 0, and nothing
was fetched for that architecture. -/
theorem architecture_lost :
    let events := smooth.map (Prod.mk .arm) ++ (.x86, .success refused) ::
      smooth.map (Prod.mk .mips)
    exitStatus "1.26".toList [.reply release] events = some 0 ∧
      (tasksAfter "1.26".toList events .arm).extracted = [("busybox.xz".toList, "BB".toList)] ∧
      (tasksAfter "1.26".toList events .x86).fetched = none ∧
      (tasksAfter "1.26".toList events .x86).extracted = [] ∧
      ¬ (tasksAfter "1.26".toList events .x86).Complete := by
  refine ⟨by decide +kernel, by decide +kernel, by decide +kernel, by decide +kernel, ?_⟩
  rintro ⟨archive, fetched, -⟩
  have nothing : (tasksAfter "1.26".toList (smooth.map (Prod.mk .arm) ++ (.x86, .success refused) ::
      smooth.map (Prod.mk .mips)) .x86).fetched = none := by
    decide +kernel
  rw [nothing] at fetched
  exact absurd fetched (by simp)

end BbBot.Build
