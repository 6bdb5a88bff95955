import K8StorageX.NodeVolumes

/-!
# Processes of a volume and of other volumes

The owner of a volume unmounts it; other processes mount and unmount other volumes. Both
know containers by the handles they have been given and directories by their options or
by what a container has recorded. A role says which operations a process may perform, and
what it knows stays true while the others act. The programs of the store are gone through
once, for both roles.
-/

namespace K8StorageX.VolumeRoles

open ApiProgram WorkerPool NodeAgent LayerfsStore ContainerLibraries GoErrors NodeVolumes
open SynchronizedStore (Result)

variable {κ : Type}

/-- Options of another volume of another cache. -/
structure Foreign (lib : Libraries κ) (v : Volume) (opts : MountOptions) : Prop where
  /-- The container has a name, and another one. -/
  name : ∀ name, LayerfsStore.containerName opts = .ok name → name ≠ "" ∧ name ≠ v.name
  /-- The external directory is another one. -/
  dir : opts.extMountDir ≠ v.dir
  /-- The container of the volume is not found by its path. -/
  path : opts.containerName = "" → opts.extMountDir ≠ lib.mountPoint v.id
  /-- The other volume does not start from an image of the cache. -/
  image : ∀ ref, lib.parseImageName opts.image = .ok ref → ¬ RefersTo v.ref ref.dockerReference
  /-- The images of the other cache are stored under other references. -/
  cache : ∀ ref, lib.parseStoreReference (localImageName opts) = .ok ref →
    ∀ other, RefersTo ref.dockerReference other → ¬ RefersTo v.ref other

/-- Options of the volume, for unmounting it. -/
structure Own (lib : Libraries κ) (v : Volume) (opts : MountOptions) : Prop where
  /-- The container is given by its name. -/
  name : opts.containerName = v.name
  /-- The container has a name. -/
  given : v.name ≠ ""
  /-- The external directory is left to what the container has recorded, or the same. -/
  dir : opts.extMountDir = "" ∨ opts.extMountDir = v.dir
  /-- The images of the cache. -/
  cache : ∀ ref, lib.parseStoreReference (localImageName opts) = .ok ref →
    ref.dockerReference = v.ref

/-- A request about the volume only. -/
def OwnedRequest (v : Volume) (s : Node κ) : Req → Prop
  | .layerfs op => Owned v s op
  | _ => True

/-- What a request of a process keeps: others leave the volume alone, and the owner asks for
nothing else. -/
def Keeps (v : Volume) (owner : Option ℕ) (w : ℕ) (r : Req) (s t : Node κ) : Prop :=
  (owner ≠ some w → Same v s t) ∧ (owner = some w → OwnedRequest v s r) ∧
    (Present v t → Present v s)

/-- One process may own the volume and unmount it. The others leave it alone. -/
def sharing (lib : Libraries κ) (v : Volume) (owner : Option ℕ) : Discipline (node lib) where
  inv := Tidy v
  rely w s t := (owner = some w → Same v s t) ∧ (Present v t → Present v s)
  guarantee w _ r _ s t := Keeps v owner w r s t
  post _ _ _ _ := True
  admitsStart w command _ :=
    (owner = some w → ∃ opts, command = .unmount opts ∧ Own lib v opts) ∧
      (owner ≠ some w → Foreign lib v command.opts)
  admitsEnv e _ := e.containerID ≠ v.id
  rely_refl _ s := ⟨fun _ => .refl v s, fun h => h⟩
  rely_trans _ _ _ _ h h' := ⟨fun hw => (h.1 hw).trans (h'.1 hw), fun ht => h.2 (h'.2 ht)⟩

/-- Operations that only ask for something that does not change. -/
def asks : LayerfsOp → Bool
  | .parseStoreReference _ => true
  | .parseImageName _ => true
  | .newStoreReference _ _ => true
  | .contextErr => true
  | _ => false

/-- What a process may do, and what stays true for it. -/
structure Role (lib : Libraries κ) (v : Volume) (owner : Option ℕ) (w : ℕ) where
  /-- The operations it may perform. -/
  permits : Node κ → LayerfsOp → Prop
  /-- What it knows of the first state it knows of the second. -/
  lasting : Node κ → Node κ → Prop
  /-- The steps of the others change nothing of what it knows. -/
  lasting_of_rely : ∀ {s t}, (sharing lib v owner).rely w s t → lasting s t
  /-- Its own operations change nothing of it unless they delete a container. -/
  lasting_perform : ∀ {s op}, Tidy v s → permits s op → deletes op = false →
    lasting s (lib.perform op s).2
  /-- Its operations are within its part of the discipline. -/
  keeps : ∀ {s op}, Tidy v s → permits s op →
    Tidy v (lib.perform op s).2 ∧ Keeps v owner w (.layerfs op) s (lib.perform op s).2
  /-- So are those that fail. -/
  keeps_failed : ∀ {s op}, permits s op → Keeps v owner w (.layerfs op) s s
  /-- It may ask. -/
  asked : ∀ s {op}, asks op = true → permits s op

/-- The contract of a process with a role. -/
def Role.contract {lib : Libraries κ} {v : Volume} {owner : Option ℕ} {w : ℕ}
    (_ : Role lib v owner w) : Contract Req Resp (Node κ) (Option String) :=
  (sharing lib v owner).contract w

section Rules

variable {lib : Libraries κ} {v : Volume} {owner : Option ℕ} {w : ℕ}
variable {role : Role lib v owner w} {α β : Type} {pre : Node κ → Prop} {s t : Node κ}

/-- A fact that stays true for a process. -/
def Lasting (role : Role lib v owner w) (fact : Node κ → Prop) : Prop :=
  ∀ s t, role.lasting s t → fact s → fact t

/-- What is always true lasts. -/
theorem lasting_true : Lasting role fun _ => True := fun _ _ _ _ => trivial

/-- A process keeps to its role and returns something as described. -/
def Acts (role : Role lib v owner w) (pre : Node κ → Prop) (p : Agent α)
    (post : α → Node κ → Prop) : Prop :=
  ∀ seen s, pre s → Wp role.contract (fun _ value t => post value t) p seen s

/-- A value is returned from what lasts until then. -/
theorem acts_ret {value : α} {post : α → Node κ → Prop} (hlasting : Lasting role pre)
    (h : ∀ s, pre s → post value s) : Acts role pre (.ret value) post := by
  intro seen s hs t hrely _
  exact h t (hlasting s t (role.lasting_of_rely hrely) hs)

/-- Nothing is said about what is returned. -/
theorem acts_any {value : α} : Acts role pre (.ret value) fun _ _ => True :=
  fun _ _ _ _ _ _ => trivial

/-- A stronger precondition is enough. -/
theorem Acts.weaken {p : Agent α} {post : α → Node κ → Prop} {stronger : Node κ → Prop}
    (h : Acts role pre p post) (hpre : ∀ s, stronger s → pre s) : Acts role stronger p post :=
  fun seen s hs => h seen s (hpre s hs)

/-- What is returned satisfies whatever follows. -/
theorem Acts.mono {p : Agent α} {post weaker : α → Node κ → Prop} (h : Acts role pre p post)
    (hpost : ∀ value s, post value s → weaker value s) : Acts role pre p weaker :=
  fun seen s hs => (h seen s hs).mono fun _ value t _ ht => hpost value t ht

/-- A fact that is not about the node is known from then on. -/
theorem Acts.of_fact {fact : Prop} {p : Agent α} {post : α → Node κ → Prop}
    (h : fact → Acts role pre p post) : Acts role (fun s => pre s ∧ fact) p post :=
  fun seen s hs => h hs.2 seen s hs.1

/-- A process keeps to its role in two parts if the second begins with what the first has led to. -/
theorem Acts.bind {p : Agent α} {f : α → Agent β} {fact : α → Node κ → Prop}
    {post : β → Node κ → Prop} (hp : Acts role pre p fact)
    (hf : ∀ value, Acts role (fact value) (f value) post) : Acts role pre (p >>= f) post := by
  intro seen s hs
  refine Wp.bind ((hp seen s hs).mono ?_)
  intro seen value t _ hfact
  exact hf value seen t hfact

/-- An operation has answered in a tidy state, or it has failed. -/
def Answered (lib : Libraries κ) (v : Volume) (op : LayerfsOp) (outcome : op.Outcome)
    (t : Node κ) : Prop :=
  (∃ s, Tidy v s ∧ outcome = (lib.perform op s).1 ∧ t = (lib.perform op s).2) ∨
    ∃ text, outcome = failedOutcome text op

/-- A permitted operation that deletes no container keeps what lasts, and its outcome is known. -/
theorem acts_perform {op : LayerfsOp} {f : op.Outcome → Agent α} {post : α → Node κ → Prop}
    (hremains : deletes op = false) (hlasting : Lasting role pre)
    (hop : ∀ s, pre s → role.permits s op)
    (hf : ∀ outcome, Acts role (fun t => pre t ∧ Answered lib v op outcome t) (f outcome) post) :
    Acts role pre (LayerfsStore.perform op >>= f) post := by
  intro seen s hs t hrely ht fault _
  have hpre := hlasting s t (role.lasting_of_rely hrely) hs
  have hpermitted := hop t hpre
  cases fault with
  | none =>
    obtain ⟨htidy, hkeeps⟩ := role.keeps ht hpermitted
    refine ⟨htidy, hkeeps, hf _ _ _ ⟨?_, .inl ⟨t, ht, rfl, rfl⟩⟩⟩
    exact hlasting t _ (role.lasting_perform ht hpermitted hremains) hpre
  | some text =>
    exact ⟨ht, role.keeps_failed hpermitted, hf _ _ _ ⟨hpre, .inr ⟨text, rfl⟩⟩⟩

/-- The answer of an operation is not needed. -/
theorem acts_perform_any {op : LayerfsOp} {f : op.Outcome → Agent α} {post : α → Node κ → Prop}
    (hremains : deletes op = false) (hlasting : Lasting role pre)
    (hop : ∀ s, pre s → role.permits s op) (hf : ∀ outcome, Acts role pre (f outcome) post) :
    Acts role pre (LayerfsStore.perform op >>= f) post :=
  acts_perform hremains hlasting hop fun outcome => (hf outcome).weaken fun _ h => h.1

/-- Nothing is known of the node after a container has been deleted. -/
theorem acts_delete {id : String} {f : Except String Unit → Agent α} {post : α → Node κ → Prop}
    (hlasting : Lasting role pre) (hop : ∀ s, pre s → role.permits s (.builderDelete id))
    (hf : ∀ outcome, Acts role (fun _ => True) (f outcome) post) :
    Acts role pre (LayerfsStore.perform (.builderDelete id) >>= f) post := by
  intro seen s hs t hrely ht fault _
  have hpermitted := hop t (hlasting s t (role.lasting_of_rely hrely) hs)
  cases fault with
  | none =>
    obtain ⟨htidy, hkeeps⟩ := role.keeps ht hpermitted
    exact ⟨htidy, hkeeps, hf _ _ _ trivial⟩
  | some text => exact ⟨ht, role.keeps_failed hpermitted, hf _ _ _ trivial⟩

/-- Asking is permitted in every role. -/
theorem acts_ask {op : LayerfsOp} {f : op.Outcome → Agent α} {post : α → Node κ → Prop}
    (hasks : asks op = true) (hlasting : Lasting role pre)
    (hf : ∀ outcome, Acts role (fun t => pre t ∧ Answered lib v op outcome t) (f outcome) post) :
    Acts role pre (LayerfsStore.perform op >>= f) post := by
  have hremains : deletes op = false := by
    cases op <;> first | rfl | cases hasks
  exact acts_perform hremains hlasting (fun s _ => role.asked s hasks) hf

end Rules

section Programs

variable {lib : Libraries κ} {v : Volume} {owner : Option ℕ} {w : ℕ}
variable {role : Role lib v owner w} {opts : MountOptions} {pre : Node κ → Prop} {s t : Node κ}

/-- What is given is as described. -/
def Gives {ε β : Type} (fact : β → Node κ → Prop) (response : Except ε β) (s : Node κ) : Prop :=
  ∀ value, response = .ok value → fact value s

/-- A value is given with its fact. -/
theorem gives_ok {ε β : Type} {fact : β → Node κ → Prop} {value : β} :
    Gives fact (.ok value : Except ε β) s ↔ fact value s := by
  constructor
  · exact fun h => h value rfl
  · intro h value' hvalue
    cases hvalue
    exact h

/-- An error gives nothing. -/
theorem gives_error {ε β : Type} {fact : β → Node κ → Prop} (e : ε) : Gives fact (.error e) s := by
  intro value hvalue
  cases hvalue

/-- Wrapping the error does not change what is given. -/
theorem Gives.mapError {ε ε' β : Type} {fact : β → Node κ → Prop} {response : Except ε β}
    (h : Gives fact response s) (f : ε → ε') : Gives fact (response.mapError f) s := by
  cases response with
  | error e => exact gives_error _
  | ok value => exact gives_ok.mpr (gives_ok.mp h)

/-- What is given lasts if the fact does. -/
theorem lasting_gives {ε β : Type} {fact : β → Node κ → Prop}
    (hlasting : ∀ value, Lasting role (fact value)) (response : Except ε β) :
    Lasting role (Gives fact response) :=
  fun s t hlast h value hvalue => hlasting value s t hlast (h value hvalue)

/-- Two facts that last do so together. -/
theorem Lasting.and {fact : Node κ → Prop} (hpre : Lasting role pre) (hfact : Lasting role fact) :
    Lasting role fun s => pre s ∧ fact s :=
  fun s t hlast h => ⟨hpre s t hlast h.1, hfact s t hlast h.2⟩

/-- A reference is what the library parses. -/
def Parsed (parsed : Except String ImageRef) (ref : ImageRef) (_ : Node κ) : Prop :=
  parsed = .ok ref

/-- What a name is parsed to does not depend on the node. -/
theorem lasting_parsed (parsed : Except String ImageRef) (ref : ImageRef) :
    Lasting role (Parsed parsed ref) := fun _ _ _ h => h

/-- The reference of a stored image is the one its name is parsed to. -/
theorem acts_storeImageRef (hlasting : Lasting role pre) (name : String) :
    Acts role pre (storeImageRef name) fun response t =>
      pre t ∧ Gives (Parsed (lib.parseStoreReference name)) response t := by
  refine acts_ask rfl hlasting fun outcome => ?_
  have hlast := hlasting.and (lasting_gives (lasting_parsed (lib.parseStoreReference name)) outcome)
  refine Acts.weaken (acts_ret hlast fun s hs => ⟨hs.1, hs.2.mapError _⟩) ?_
  rintro t ⟨hpre, ⟨s, -, rfl, -⟩ | ⟨text, rfl⟩⟩
  · exact ⟨hpre, fun ref href => href⟩
  · exact ⟨hpre, gives_error text⟩

/-- The reference of a given image is the one its name is parsed to. -/
theorem acts_imageRef (hlasting : Lasting role pre) (himage : opts.image ≠ "") :
    Acts role pre (imageRef opts) fun response t =>
      pre t ∧ Gives (Parsed (lib.parseImageName opts.image)) response t := by
  unfold imageRef
  rw [if_neg himage]
  refine acts_ask rfl hlasting fun outcome => ?_
  have hlast := hlasting.and (lasting_gives (lasting_parsed (lib.parseImageName opts.image)) outcome)
  refine Acts.weaken (acts_ret hlast fun s hs => ⟨hs.1, hs.2.mapError _⟩) ?_
  rintro t ⟨hpre, ⟨s, -, rfl, -⟩ | ⟨text, rfl⟩⟩
  · exact ⟨hpre, fun ref href => href⟩
  · exact ⟨hpre, gives_error text⟩

/-- The destination of a push is only asked for. -/
theorem acts_destinationRef (hlasting : Lasting role pre) :
    Acts role pre (destinationRef opts) fun _ t => pre t := by
  unfold destinationRef
  split
  · exact acts_ret hlasting fun _ h => h
  · next himage =>
    refine (acts_imageRef hlasting himage).bind fun _ => ?_
    exact (acts_ret hlasting fun _ h => h).weaken fun _ h => h.1

/-- A directory is unmounted and removed by a process that may do both. -/
theorem acts_unmountIf (hlasting : Lasting role pre) {needed : Bool} {dir : String}
    (hdir : needed = true → ∀ s, pre s →
      role.permits s (.unmount dir) ∧ role.permits s (.remove dir)) :
    Acts role pre (unmountIf needed dir) fun _ t => pre t := by
  unfold unmountIf
  split
  · next hneeded =>
    refine acts_perform_any rfl hlasting (fun s hs => (hdir hneeded s hs).1) fun _ => ?_
    refine acts_perform_any rfl hlasting (fun s hs => (hdir hneeded s hs).2) fun removed => ?_
    split <;> exact acts_ret hlasting fun _ h => h
  · exact acts_ret hlasting fun _ h => h

/-- A role in which a volume can be unmounted, with what is known of the handle. -/
structure Unmounting (role : Role lib v owner w) (opts : MountOptions)
    (handle : Builder → Node κ → Prop) : Prop where
  /-- What is known of the handle stays true. -/
  lasting : ∀ builder, Lasting role (handle builder)
  /-- The external directory may be removed. -/
  dir : opts.extMountDir ≠ "" → ∀ s, role.permits s (.unmount opts.extMountDir) ∧
    role.permits s (.remove opts.extMountDir)
  /-- The container is opened. -/
  opened : ∀ name, LayerfsStore.containerName opts = .ok name →
    Acts role (fun _ => True) (openContainer opts name) fun opened t => Gives handle opened t
  /-- A directory the container has recorded may be removed. -/
  recorded : ∀ {builder s dir}, handle builder s → builder.mountDir = some dir →
    role.permits s (.unmount dir) ∧ role.permits s (.remove dir)
  /-- The container may be unmounted. -/
  unmount : ∀ {builder s}, handle builder s → role.permits s (.builderUnmount builder.containerID)
  /-- The container may be deleted. -/
  delete : ∀ {builder s}, handle builder s → role.permits s (.builderDelete builder.containerID)
  /-- The container may be read. -/
  container : ∀ {builder s}, handle builder s → role.permits s (.container builder.containerID)
  /-- The changes of the container may be read. -/
  changes : ∀ {builder s}, handle builder s → role.permits s (.changes builder.containerID)
  /-- The container may be committed. -/
  commit : ∀ {builder s ref}, handle builder s →
    lib.parseStoreReference (localImageName opts) = .ok ref →
    role.permits s (.builderCommit builder.containerID ref)
  /-- The images of the cache may be pushed. -/
  push : ∀ {s ref srcRef destRef}, lib.parseStoreReference (localImageName opts) = .ok ref →
    RefersTo ref.dockerReference srcRef.dockerReference → role.permits s (.copyImage srcRef destRef)

variable {handle : Builder → Node κ → Prop}

/-- The layer of a container has the ID of the container. -/
theorem layerID_of_answered {id : String} {c : Container}
    (h : Answered lib v (.container id) (.ok c) t) : c.layerID = id := by
  rcases h with ⟨s, -, hok, -⟩ | ⟨text, hok⟩
  · simp only [Libraries.perform, Node.withContainer] at hok
    split at hok
    · cases hok
    · next k hk =>
      have hid : k.id = id := by simpa using List.find?_some hk
      cases hok
      exact hid
  · cases hok

/-- A committed image is referred to by the reference it was committed under. -/
theorem canonical_of_answered {id : String} {imgRef : ImageRef} {imageID ref : String}
    (h : Answered lib v (.builderCommit id imgRef) (.ok (imageID, ref)) t) :
    RefersTo imgRef.dockerReference ref := by
  rcases h with ⟨s, -, hok, -⟩ | ⟨text, hok⟩
  · simp only [Libraries.perform, Node.withContainer] at hok
    split at hok
    · cases hok
    · cases hok
      exact .inr ⟨_, rfl⟩
  · cases hok

/-- A new image has a reference of its cache. -/
def NewImage (imgRef : ImageRef) (committed : String × String × Bool) (_ : Node κ) : Prop :=
  committed.2.2 = true → RefersTo imgRef.dockerReference committed.2.1

/-- A commit keeps to the role and refers to an image of the cache. -/
theorem acts_commit (h : Unmounting role opts handle) (builder : Builder) {imgRef : ImageRef}
    (href : lib.parseStoreReference (localImageName opts) = .ok imgRef) :
    Acts role (handle builder) (commit builder (some imgRef)) fun committed t =>
      handle builder t ∧ Gives (NewImage imgRef) committed t := by
  have hlasting := h.lasting builder
  refine acts_perform rfl hlasting (fun _ hs => h.container hs) fun container => ?_
  cases container with
  | error text =>
    exact (acts_ret hlasting fun _ hs => ⟨hs, gives_error _⟩).weaken fun _ hs => hs.1
  | ok c =>
    -- the layer is the one of the container
    intro seen s hs
    have hlayer := layerID_of_answered hs.2
    refine acts_perform_any rfl hlasting (fun s hs => ?_) (fun changes => ?_) seen s hs.1
    · rw [hlayer]
      exact h.changes hs
    · cases changes with
      | error text => exact acts_ret hlasting fun _ hs => ⟨hs, gives_error _⟩
      | ok changed =>
        dsimp only
        split
        · exact acts_ret hlasting fun _ hs => ⟨hs, gives_ok.mpr fun hnew => (by cases hnew)⟩
        · refine acts_perform rfl hlasting (fun _ hs => h.commit hs href) fun committed => ?_
          cases committed with
          | error text =>
            exact (acts_ret hlasting fun _ hs => ⟨hs, gives_error _⟩).weaken fun _ hs => hs.1
          | ok image =>
            refine Acts.weaken (Acts.of_fact fun hcanonical => acts_ret hlasting fun _ hs =>
              ⟨hs, gives_ok.mpr fun _ => hcanonical⟩) fun _ hs => ⟨hs.1, canonical_of_answered hs.2⟩

/-- A push keeps to the role if copying the image does. -/
theorem acts_pushImage (hlasting : Lasting role pre) {ref imageID : String} {destRef : ImageRef}
    (hpush : ∀ s, role.permits s (.copyImage ⟨ref⟩ destRef)) :
    Acts role pre (pushImage ref imageID destRef) fun _ t => pre t := by
  refine acts_ask rfl hlasting fun srcRef => ?_
  cases srcRef with
  | error text => exact (acts_ret hlasting fun _ hs => hs).weaken fun _ hs => hs.1
  | ok srcRef =>
    intro seen s hs
    have hsrc : srcRef = ⟨ref⟩ := by
      rcases hs.2 with ⟨_, -, hok, -⟩ | ⟨text, hok⟩
      · cases hok
        rfl
      · cases hok
    refine acts_perform_any rfl hlasting (fun s _ => ?_) (fun copied => ?_) seen s hs.1
    · rw [hsrc]
      exact hpush s
    · exact acts_ret hlasting fun _ hs => hs

/-- The commit followed by the push keeps to the role. -/
theorem acts_publish (h : Unmounting role opts handle) (builder : Builder) :
    Acts role (handle builder) (publish opts builder) fun _ t => handle builder t := by
  have hlasting := h.lasting builder
  refine (acts_storeImageRef hlasting _).bind fun response => ?_
  cases response with
  | error e => exact (acts_ret hlasting fun _ hs => hs).weaken fun _ hs => hs.1
  | ok imgRef =>
    refine Acts.weaken (Acts.of_fact fun href => ?_) fun s hs => ⟨hs.1, hs.2 imgRef rfl⟩
    refine (acts_destinationRef hlasting).bind fun destination => ?_
    cases destination with
    | error e => exact acts_ret hlasting fun _ hs => hs
    | ok destRef =>
      refine (acts_commit h builder href).bind fun committed => ?_
      split
      · exact (acts_ret hlasting fun _ hs => hs).weaken fun _ hs => hs.1
      · next imageID ref destRef =>
        refine Acts.weaken (Acts.of_fact fun hnew => ?_) fun s hs => ⟨hs.1, hs.2 _ rfl rfl⟩
        refine (acts_pushImage hlasting fun s => h.push href hnew).bind fun err => ?_
        split <;> exact acts_ret hlasting fun _ hs => hs
      · exact (acts_ret hlasting fun _ hs => hs).weaken fun _ hs => hs.1

/-- `Unmount` of a container keeps to the role. -/
theorem acts_unmountBuilder (h : Unmounting role opts handle) (builder : Builder) :
    Acts role (handle builder) (unmountBuilder opts builder) fun _ t => handle builder t := by
  have hlasting := h.lasting builder
  have hdir : decide (builder.mountDir.getD "" ≠ "" ∧ builder.mountDir.getD "" ≠ opts.extMountDir)
      = true → ∀ s, handle builder s → role.permits s (.unmount (builder.mountDir.getD "")) ∧
        role.permits s (.remove (builder.mountDir.getD "")) := by
    intro hneeded s hs
    have hgiven := (of_decide_eq_true hneeded).1
    cases hrecorded : builder.mountDir with
    | none => simp [hrecorded] at hgiven
    | some dir => exact h.recorded hs hrecorded
  refine (acts_unmountIf hlasting hdir).bind fun err => ?_
  refine acts_perform_any rfl hlasting (fun _ hs => h.unmount hs) fun unmounted => ?_
  dsimp only
  split
  · exact acts_ret hlasting fun _ hs => hs
  · exact acts_publish h builder

/-- A process that may unmount a volume keeps to its role when it does. -/
theorem acts_unmount (h : Unmounting role opts handle) :
    Acts role (fun _ => True) (LayerfsStore.unmount opts) fun _ _ => True := by
  unfold LayerfsStore.unmount
  dsimp only
  split
  · exact acts_any
  · exact acts_any
  · exact acts_any
  · next name _ _ hname =>
    have hdir : decide (opts.extMountDir ≠ "") = true → ∀ s, True →
        role.permits s (.unmount opts.extMountDir) ∧ role.permits s (.remove opts.extMountDir) :=
      fun hneeded s _ => h.dir (of_decide_eq_true hneeded) s
    refine (acts_unmountIf lasting_true hdir).bind fun _ => ?_
    refine (h.opened name hname).bind fun opened => ?_
    cases opened with
    | error e => exact acts_any
    | ok builder =>
      have hlasting := h.lasting builder
      refine Acts.weaken ?_ fun t ht => gives_ok.mp ht
      refine (acts_unmountBuilder h builder).bind fun result => ?_
      refine acts_ask rfl hlasting fun cancelled => ?_
      split
      · exact acts_any
      · refine Acts.weaken ?_ fun t ht => ht.1
        exact acts_delete hlasting (fun _ hs => h.delete hs) fun _ => acts_any

end Programs

section Others

variable {lib : Libraries κ} {v : Volume} {owner : Option ℕ} {w : ℕ} {opts : MountOptions}
variable {s t : Node κ}

/-- The role of a process of another volume: what it knows stays true as long as the volume
is not mounted anew. -/
def others (lib : Libraries κ) (v : Volume) (hw : owner ≠ some w) : Role lib v owner w where
  permits := Spared v
  lasting s t := Present v t → Present v s
  lasting_of_rely h := h.2
  lasting_perform hs hop _ := (hs.perform hop).2.present.mp
  keeps hs hop := by
    obtain ⟨htidy, hsame⟩ := hs.perform hop
    exact ⟨htidy, fun _ => hsame, fun howner => absurd howner hw, hsame.present.mp⟩
  keeps_failed _ := ⟨fun _ => .refl v _, fun howner => absurd howner hw, fun h => h⟩
  asked s op hasks := by
    cases op <;> first | exact trivial | cases hasks

variable {hw : owner ≠ some w}

/-- A container of another volume stays one. -/
theorem lasting_other (builder : Builder) :
    Lasting (others lib v hw) fun s => Other v builder s :=
  fun _ _ hpresent h => ⟨fun ht => h.container (hpresent ht), h.dir⟩

/-- A handle of another container. -/
abbrev GivesOther (v : Volume) {ε : Type} (response : Except ε Builder) (s : Node κ) : Prop :=
  Gives (fun builder => Other v builder) response s

/-- A container created for another volume is not that of the volume. -/
theorem givesOther_newBuilder {name fromImage : String} {pullPolicy : PullPolicy}
    {created : Except String Builder} (hop : Spared v s (.newBuilder name fromImage pullPolicy))
    (h : Answered lib v (.newBuilder name fromImage pullPolicy) created t) :
    GivesOther v created t := by
  rcases h with ⟨s, hs, rfl, rfl⟩ | ⟨text, rfl⟩
  · exact (hs.newBuilder lib hop.1 hop.2.1 hop.2.2).2.2
  · exact gives_error text

/-- A container opened by another name is not that of the volume. -/
theorem givesOther_openBuilder {name : String} {opened : Except String Builder}
    (hne : name ≠ v.name) (h : Answered lib v (.openBuilder name) opened t) :
    GivesOther v opened t := by
  rcases h with ⟨s, hs, rfl, rfl⟩ | ⟨text, rfl⟩
  · simp only [Libraries.perform]
    split
    · exact gives_error _
    · next k hk =>
      have hfound : k.name = name := by simpa using List.find?_some hk
      exact gives_ok.mpr (hs.other (List.mem_of_find?_eq_some hk) (hfound ▸ hne))
  · exact gives_error text

/-- Nor is one that is opened by another path. -/
theorem givesOther_openBuilderByPath {path : String} {opened : Except String Builder}
    (hne : path ≠ lib.mountPoint v.id) (h : Answered lib v (.openBuilderByPath path) opened t) :
    GivesOther v opened t := by
  rcases h with ⟨s, hs, rfl, rfl⟩ | ⟨text, rfl⟩
  · simp only [Libraries.perform]
    split
    · exact gives_error _
    · next k hk =>
      have hfound : lib.mountPoint k.id = path := by simpa using List.find?_some hk
      have hmem := List.mem_of_find?_eq_some hk
      refine gives_ok.mpr (hs.other hmem fun hname => hne ?_)
      rw [← hfound, hs.own k hmem hname]
  · exact gives_error text

/-- Creating the container of another volume leaves the volume alone. -/
theorem acts_createBuilder {name imageName : String} {pullPolicy : PullPolicy}
    (hname : name ≠ "" ∧ name ≠ v.name)
    (hne : pullPolicy = .always → ¬ RefersTo v.ref imageName) :
    Acts (others lib v hw) (fun _ => True) (createBuilder name imageName pullPolicy)
      fun created t => GivesOther v created t := by
  have hop : ∀ s : Node κ, Spared v s (.newBuilder name imageName pullPolicy) :=
    fun _ => ⟨hname.1, hname.2, hne⟩
  have hscratch : ∀ s : Node κ, Spared v s (.newBuilder name "scratch" .never) :=
    fun _ => ⟨hname.1, hname.2, fun h => (by cases h)⟩
  have hlasting : ∀ created : Except String Builder,
      Lasting (others lib v hw) (GivesOther v created) := lasting_gives lasting_other
  refine acts_perform rfl lasting_true (fun s _ => hop s) fun created => ?_
  refine Acts.weaken ?_ fun t h => givesOther_newBuilder (hop t) h.2
  cases created with
  | ok builder => exact acts_ret (hlasting _) fun t h => gives_ok.mpr (gives_ok.mp h)
  | error text =>
    dsimp only
    split
    · exact acts_ret (hlasting _) fun _ _ => gives_error _
    · refine acts_perform rfl (hlasting _) (fun s _ => hscratch s) fun again => ?_
      refine Acts.weaken ?_ fun t h => givesOther_newBuilder (hscratch t) h.2
      exact acts_ret (hlasting _) fun _ h => h.mapError _

/-- So does mounting it at another directory. -/
theorem acts_mountBuilder (hdir : opts.extMountDir ≠ v.dir) (builder : Builder) :
    Acts (others lib v hw) (fun s => Other v builder s) (mountBuilder opts builder)
      fun _ t => Other v builder t := by
  have hlasting : Lasting (others lib v hw) fun s => Other v builder s := lasting_other builder
  refine acts_perform_any rfl hlasting (fun _ h => h.container) fun mounted => ?_
  split
  · exact acts_ret hlasting fun _ h => h
  · split
    · exact acts_ret hlasting fun _ h => h
    · refine acts_perform_any rfl hlasting (fun _ h => ⟨h.container, hdir⟩) fun saved => ?_
      split
      · exact acts_ret hlasting fun _ h => h
      · refine acts_perform_any rfl hlasting (fun _ _ => hdir) fun bound => ?_
        exact acts_ret hlasting fun _ h => h

/-- So do both, with the cleanup after a failure. -/
theorem acts_mountContainer (hdir : opts.extMountDir ≠ v.dir) {name imageName : String}
    {pullPolicy : PullPolicy} (hname : name ≠ "" ∧ name ≠ v.name)
    (hne : pullPolicy = .always → ¬ RefersTo v.ref imageName) :
    Acts (others lib v hw) (fun _ => True) (mountContainer opts name imageName pullPolicy)
      fun _ _ => True := by
  refine (acts_createBuilder hname hne).bind fun created => ?_
  cases created with
  | error e => exact acts_any
  | ok builder =>
    have hlasting : Lasting (others lib v hw) fun s => Other v builder s := lasting_other builder
    refine Acts.weaken ?_ fun t h => gives_ok.mp h
    refine (acts_mountBuilder hdir builder).bind fun result => ?_
    split
    · refine acts_perform_any rfl hlasting (fun _ h => h.container) fun _ => ?_
      exact acts_delete hlasting (fun _ h => h.container) fun _ => acts_any
    · exact acts_any

/-- An image that is pulled is not one of the cache. -/
theorem acts_mountedImageRef (h : Foreign lib v opts) :
    Acts (others lib v hw) (fun _ => True) (mountedImageRef opts) fun response _ =>
      True ∧ ∀ ref, response = .ok ref → opts.image ≠ "" → ¬ RefersTo v.ref ref.dockerReference := by
  unfold mountedImageRef
  split
  · next hempty =>
    refine (acts_storeImageRef lasting_true _).mono fun response s _ => ⟨trivial, ?_⟩
    intro ref _ hne
    exact absurd hempty hne
  · next himage =>
    refine (acts_imageRef lasting_true himage).mono fun response s hresponse => ⟨trivial, ?_⟩
    intro ref href _
    exact h.image ref (hresponse.2 ref href)

/-- Mounting another volume. -/
theorem acts_mount (h : Foreign lib v opts) :
    Acts (others lib v hw) (fun _ => True) (LayerfsStore.mount opts) fun _ _ => True := by
  unfold LayerfsStore.mount
  split
  · exact acts_any
  · exact acts_any
  · next name hvalid hname =>
    refine (acts_mountedImageRef h).bind fun response => ?_
    dsimp only
    split
    · exact acts_any
    · next ref =>
      refine Acts.of_fact fun hresponse => ?_
      have hpull : (if opts.image = "" then PullPolicy.never else .always) = .always →
          ¬ RefersTo v.ref ref.dockerReference := by
        intro halways
        refine hresponse ref rfl fun hempty => ?_
        rw [if_pos hempty] at halways
        cases halways
      have hcontainer : Acts (others lib v hw) (fun _ => True)
          (mountContainer opts name ref.dockerReference
            (if opts.image = "" then PullPolicy.never else .always)) fun _ _ => True :=
        acts_mountContainer h.dir (h.name name hname) hpull
      split
      · exact hcontainer
      · refine acts_perform_any rfl lasting_true (fun _ _ => h.dir) fun made => ?_
        split
        · exact acts_any
        · refine hcontainer.bind fun result => ?_
          split
          · exact acts_perform_any rfl lasting_true (fun _ _ => h.dir) fun _ => acts_any
          · exact acts_any

/-- The container of another volume is opened by its name or its path. -/
theorem acts_openContainer_other (h : Foreign lib v opts) {name : String}
    (hname : LayerfsStore.containerName opts = .ok name) :
    Acts (others lib v hw) (fun _ => True) (openContainer opts name)
      fun opened t => GivesOther v opened t := by
  have hlasting : ∀ opened : Except String Builder,
      Lasting (others lib v hw) (GivesOther v opened) := lasting_gives lasting_other
  refine acts_perform rfl lasting_true (fun _ _ => trivial) fun opened => ?_
  refine Acts.weaken ?_ fun t ht => givesOther_openBuilder (h.name name hname).2 ht.2
  cases opened with
  | ok builder => exact acts_ret (hlasting _) fun t ht => gives_ok.mpr (gives_ok.mp ht)
  | error text =>
    dsimp only
    split
    · next hempty =>
      refine acts_perform rfl (hlasting _) (fun _ _ => trivial) fun again => ?_
      refine Acts.weaken ?_ fun t ht => givesOther_openBuilderByPath (h.path hempty) ht.2
      exact acts_ret (hlasting _) fun _ ht => ht.mapError _
    · exact acts_ret (hlasting _) fun _ _ => gives_error _

/-- Another volume of another cache is unmounted in the role of the others. -/
theorem unmounting_other (h : Foreign lib v opts) :
    Unmounting (others lib v hw) opts fun builder => Other v builder where
  lasting := lasting_other
  dir _ _ := ⟨h.dir, h.dir⟩
  opened _ hname := acts_openContainer_other h hname
  recorded hhandle hrecorded := by
    have hne := hhandle.dir
    rw [hrecorded, ne_eq, Option.some.injEq] at hne
    exact ⟨hne, hne⟩
  unmount hhandle := hhandle.container
  delete hhandle := hhandle.container
  container _ := trivial
  changes _ := trivial
  commit _ href := h.cache _ href
  push _ _ := trivial

/-- All commands for other volumes of other caches leave the volume alone. -/
theorem acts_program {command : Command} (h : Foreign lib v command.opts) :
    Acts (others lib v hw) (fun _ => True) command.program fun _ _ => True := by
  cases command with
  | mount opts => exact (acts_mount h).bind fun _ => acts_any
  | unmount opts => exact (acts_unmount (unmounting_other h)).bind fun _ => acts_any

end Others

section Owner

variable {lib : Libraries κ} {v : Volume} {owner : Option ℕ} {w : ℕ} {opts : MountOptions}
variable {s t : Node κ}

/-- The role of the owner: what it knows stays true as long as the container is there. -/
def ownerRole (lib : Libraries κ) (v : Volume) (hw : owner = some w) : Role lib v owner w where
  permits := Owned v
  lasting s t := Present v s → Present v t
  lasting_of_rely h := (h.1 hw).present.mpr
  lasting_perform hs hop hremains := (hs.perform_owned hop).2.2 hremains
  keeps hs hop := by
    obtain ⟨htidy, hpresent, -⟩ := hs.perform_owned hop
    exact ⟨htidy, fun hne => absurd hw hne, fun _ => hop, hpresent⟩
  keeps_failed hop := ⟨fun hne => absurd hw hne, fun _ => hop, fun h => h⟩
  asked s op hasks := by
    cases op <;> first | exact trivial | cases hasks

variable {hw : owner = some w}

/-- The container of the volume stays that of the volume. -/
theorem lasting_held (builder : Builder) :
    Lasting (ownerRole lib v hw) fun s => Held v builder s :=
  fun _ _ hpresent h => ⟨h.container, h.dir, hpresent h.present⟩

/-- The container opened by the name of the volume is that of the volume. -/
theorem givesHeld_openBuilder {opened : Except String Builder}
    (h : Answered lib v (.openBuilder v.name) opened t) :
    Gives (fun builder => Held v builder) opened t := by
  rcases h with ⟨s, hs, rfl, rfl⟩ | ⟨text, rfl⟩
  · simp only [Libraries.perform]
    split
    · exact gives_error _
    · next k hk =>
      have hfound : k.name = v.name := by simpa using List.find?_some hk
      exact gives_ok.mpr (hs.held (List.mem_of_find?_eq_some hk) hfound)
  · exact gives_error text

/-- The container of the volume is opened by its name. -/
theorem acts_openContainer_own (h : Own lib v opts) :
    Acts (ownerRole lib v hw) (fun _ => True) (openContainer opts v.name)
      fun opened t => Gives (fun builder => Held v builder) opened t := by
  have hlasting : ∀ opened : Except String Builder, Lasting (ownerRole lib v hw)
      (Gives (fun builder => Held v builder) opened) := lasting_gives lasting_held
  refine acts_perform rfl lasting_true (fun _ _ => rfl) fun opened => ?_
  refine Acts.weaken ?_ fun t ht => givesHeld_openBuilder ht.2
  cases opened with
  | ok builder => exact acts_ret (hlasting _) fun t ht => gives_ok.mpr (gives_ok.mp ht)
  | error text =>
    have hgiven : opts.containerName ≠ "" := h.name ▸ h.given
    simp only [if_neg hgiven]
    exact acts_ret (hlasting _) fun _ _ => gives_error _

/-- The volume is unmounted in the role of its owner. -/
theorem unmounting_own (h : Own lib v opts) :
    Unmounting (ownerRole lib v hw) opts fun builder => Held v builder where
  lasting := lasting_held
  dir hgiven _ := by
    have hdir : opts.extMountDir = v.dir := h.dir.resolve_left hgiven
    exact ⟨hdir, hdir⟩
  opened name hname := by
    have hgiven : opts.containerName ≠ "" := h.name ▸ h.given
    have hcontainer : LayerfsStore.containerName opts = .ok v.name := by
      rw [LayerfsStore.containerName, if_pos hgiven, h.name]
    cases hcontainer.symm.trans hname
    exact acts_openContainer_own h
  recorded hhandle hrecorded := by
    have hdir := hhandle.dir _ hrecorded
    exact ⟨hdir, hdir⟩
  unmount hhandle := ⟨hhandle.container, hhandle.present⟩
  delete hhandle := ⟨hhandle.container, hhandle.present⟩
  container hhandle := ⟨hhandle.container, hhandle.present⟩
  changes hhandle := ⟨hhandle.container, hhandle.present⟩
  commit hhandle _ := ⟨hhandle.container, hhandle.present⟩
  push href hrefers := by
    rw [h.cache _ href] at hrefers
    exact hrefers

/-- The process that unmounts the volume asks for nothing else. -/
theorem acts_own (h : Own lib v opts) :
    Acts (ownerRole lib v hw) (fun _ => True) (Command.unmount opts).program fun _ _ => True :=
  (acts_unmount (unmounting_own h)).bind fun _ => acts_any

end Owner

end K8StorageX.VolumeRoles
