import K8StorageX.WorkerPool
import K8StorageX.GoErrors
import Mathlib.Data.Int.Notation
import Mathlib.Data.List.Nodup

/-!
# Pruning of the node's image store

`Prune` lists the images once, collects those without a name and removes each of
them that is neither used by a container nor the parent of another image,
together with the parents that become childless. Everything it learns comes from
calls of the container libraries, each of which may fail and between which other
processes work on the same store. What the code prints is left out.
-/

namespace K8StorageX.ImagePruning

open ApiProgram GoErrors

/-- `storage.Image` -/
structure Image where
  /-- `ID` -/
  id : String
  /-- `Names` -/
  names : List String
  /-- `TopLayer`, empty for an image without layers. -/
  topLayer : String
  /-- `ReadOnly` -/
  readOnly : Bool
  deriving DecidableEq, Repr

/-- `storage.Layer` -/
structure Layer where
  /-- `ID` -/
  id : String
  /-- `Parent`, empty for a base layer. -/
  parent : String
  deriving DecidableEq, Repr

/-- `storage.Container` -/
structure Container where
  /-- `ID` -/
  id : String
  /-- `ImageID` -/
  imageID : String
  deriving DecidableEq, Repr

/-- `imgspecv1.History` -/
structure History where
  /-- `Created`, if set. -/
  created : Option ℤ
  /-- `CreatedBy` -/
  createdBy : String
  /-- `Author` -/
  author : String
  /-- `Comment` -/
  comment : String
  /-- `EmptyLayer` -/
  emptyLayer : Bool
  deriving DecidableEq, Repr

/-- `imgspecv1.Image` -/
structure ImageConfig where
  /-- `History` -/
  history : List History
  /-- `RootFS.DiffIDs` -/
  diffIDs : List String
  deriving DecidableEq, Repr

/-- A reference to an image of the store. -/
structure StoreRef where
  /-- The image the reference resolves to. -/
  imageID : String
  /-- `transports.ImageName` -/
  imageName : String
  deriving DecidableEq, Repr

/-- Calls of the container libraries. -/
inductive Req where
  /-- `store.Images` -/
  | images
  /-- `store.Image` -/
  | image (id : String)
  /-- `store.Layer` -/
  | layer (id : String)
  /-- `store.Containers` -/
  | containers
  /-- `store.SetNames` -/
  | setNames (id : String) (names : List String)
  /-- `store.DeleteContainer` -/
  | deleteContainer (id : String)
  /-- `store.DeleteImage`; `fetched` only marks the record the decision is based on. -/
  | deleteImage (id : String) (fetched : Image)
  /-- `alltransports.ParseImageName` -/
  | parseImageName (name : String)
  /-- `util.FindImage` -/
  | findImage (name : String)
  /-- `is.Transport.ParseStoreReference` -/
  | parseStoreReference (name : String)
  /-- `is.Transport.GetStoreImage` -/
  | getStoreImage (ref : StoreRef)
  /-- `ref.NewImageSource` -/
  | newImageSource (ref : StoreRef)
  /-- `ref.NewImage` -/
  | newImage (ref : StoreRef)
  /-- `image.OCIConfig` -/
  | ociConfig (ref : StoreRef)
  deriving DecidableEq

/-- What a call returns if it does not fail. -/
abbrev Outcome : Req → Type
  | .images => List Image
  | .image _ => Image
  | .layer _ => Layer
  | .containers => List Container
  | .setNames _ _ => Unit
  | .deleteContainer _ => Unit
  | .deleteImage _ _ => Unit
  | .parseImageName _ => StoreRef
  | .findImage _ => StoreRef
  | .parseStoreReference _ => StoreRef
  | .getStoreImage _ => Image
  | .newImageSource _ => Unit
  | .newImage _ => Unit
  | .ociConfig _ => ImageConfig

/-- Every call may fail with a text. -/
abbrev Resp (r : Req) : Type := Except String (Outcome r)

/-- Programs that call the container libraries. -/
abbrev Pruner : Type → Type := Prog Req Resp

/-- `getImageConfig`; an image that exists but cannot be opened has no configuration. -/
def getImageConfig (imageID : String) : Pruner (Except GoError (Option ImageConfig)) := do
  let parsed : Except String StoreRef ← Prog.request (Req.parseStoreReference imageID)
  match parsed with
  | .error text =>
    return .error (.wrapped ("unable to parse reference to image " ++ imageID.quote) (.text text))
  | .ok ref =>
    let opened : Except String Unit ← Prog.request (Req.newImage ref)
    match opened with
    | .error text =>
      let unopened := .wrapped ("unable to open image " ++ imageID.quote) (.text text)
      let stored : Except String Image ← Prog.request (Req.image imageID)
      match stored with
      | .error _ => return .error unopened
      | .ok image => if image.id = imageID then return .ok none else return .error unopened
    | .ok _ =>
      let config : Except String ImageConfig ← Prog.request (Req.ociConfig ref)
      match config with
      | .error text =>
        return .error
          (.wrapped ("unable to read configuration from image " ++ imageID.quote) (.text text))
      | .ok config => return .ok (some config)

/-- The comparison of two entries in the loop of `historiesDiffer`. -/
def entriesDiffer (a b : History) : Bool :=
  a.created != b.created || a.createdBy != b.createdBy || a.author != b.author ||
    a.comment != b.comment || a.emptyLayer != b.emptyLayer

/-- `historiesDiffer` -/
def historiesDiffer (a b : List History) : Bool :=
  a.length != b.length || (a.zip b).any fun entries => entriesDiffer entries.1 entries.2

/-- The child's history is the parent's history and one more entry. -/
def extendsHistory (parent child : ImageConfig) : Bool :=
  parent.history.length + 1 == child.history.length &&
    !historiesDiffer parent.history (child.history.take parent.history.length)

/-- The child's layers begin with the parent's layers. -/
def usesAllLayers (parent child : ImageConfig) : Bool :=
  parent.diffIDs.isPrefixOf child.diffIDs

/-- The top layer of an image, read unless the image has none. -/
def topLayer (image : Image) (shown : String) : Pruner (Except GoError (Option Layer)) := do
  if image.topLayer = "" then return .ok none
  else
    let layer : Except String Layer ← Prog.request (Req.layer image.topLayer)
    match layer with
    | .error text =>
      return .error (.wrapped
        ("unable to retrieve information about layer " ++ shown ++ " from store") (.text text))
    | .ok layer => return .ok (some layer)

/-- The loop of `getParent`. -/
def findParent (child : Image) (childTopLayer : Option Layer) (childConfig : ImageConfig) :
    List Image → Pruner (Except GoError (Option Image))
  | [] => return .ok none
  | parent :: rest =>
    if parent.id = child.id then findParent child childTopLayer childConfig rest
    else if childTopLayer.any
        fun layer => parent.topLayer != layer.parent && parent.topLayer != layer.id then
      findParent child childTopLayer childConfig rest
    else do
      let config ← getImageConfig parent.id
      match config with
      | .error e =>
        return .error (.wrapped ("unable to read configuration from image " ++ parent.id.quote) e)
      | .ok none => findParent child childTopLayer childConfig rest
      | .ok (some parentConfig) =>
        if extendsHistory parentConfig childConfig && usesAllLayers parentConfig childConfig then
          return .ok (some parent)
        else findParent child childTopLayer childConfig rest

/-- `getParent` -/
def getParent (child : Image) : Pruner (Except GoError (Option Image)) := do
  let listed : Except String (List Image) ← Prog.request Req.images
  match listed with
  | .error text =>
    return .error (.wrapped "unable to retrieve image list from store" (.text text))
  | .ok images =>
    let top ← topLayer child child.topLayer
    match top with
    | .error e => return .error e
    | .ok childTopLayer =>
      let config ← getImageConfig child.id
      match config with
      | .error e =>
        return .error (.wrapped ("unable to read configuration from image " ++ child.id.quote) e)
      | .ok none => return .ok none
      | .ok (some childConfig) => findParent child childTopLayer childConfig images

/-- The loop of `getChildren`. -/
def findChildren (parent : Image) (parentConfig : ImageConfig) (max : ℕ) :
    List String → List Image → Pruner (Except GoError (List String))
  | children, [] => return .ok children
  | children, child :: rest =>
    if child.id = parent.id then findChildren parent parentConfig max children rest
    else do
      let top ← topLayer child child.topLayer.quote
      match top with
      | .error e => return .error e
      | .ok childTopLayer =>
        if childTopLayer.any
            fun layer => layer.parent != parent.topLayer && layer.id != parent.topLayer then
          findChildren parent parentConfig max children rest
        else
          let config ← getImageConfig child.id
          match config with
          | .error e =>
            return .error
              (.wrapped ("unable to read configuration from image " ++ child.id.quote) e)
          | .ok none => findChildren parent parentConfig max children rest
          | .ok (some childConfig) =>
            if extendsHistory parentConfig childConfig then
              if 0 < max ∧ max ≤ children.length + 1 then return .ok (children ++ [child.id])
              else findChildren parent parentConfig max (children ++ [child.id]) rest
            else findChildren parent parentConfig max children rest

/-- `getChildren` -/
def getChildren (parent : Image) (max : ℕ) : Pruner (Except GoError (List String)) := do
  let listed : Except String (List Image) ← Prog.request Req.images
  match listed with
  | .error text => return .error (.wrapped "unable to retrieve images from store" (.text text))
  | .ok images =>
    let config ← getImageConfig parent.id
    match config with
    | .error e =>
      return .error (.wrapped ("unable to read configuration from image " ++ parent.id.quote) e)
    | .ok none => return .ok []
    | .ok (some parentConfig) => findChildren parent parentConfig max [] images

/-- `imageIsParent` -/
def imageIsParent (image : Image) : Pruner (Except GoError Bool) := do
  let children ← getChildren image 1
  match children with
  | .error e => return .error e
  | .ok children => return .ok (0 < children.length)

/-- How a round of the loop of `removeImage` ends. -/
inductive Ascent where
  /-- The loop is left with a result. -/
  | left (result : Except GoError String)
  /-- The loop goes on with the next parent. -/
  | goesOn (parent : Option Image)

/-- A round of the loop of `removeImage` over the parents. -/
def ascendRound (imageID : String) (parent : Image) : Pruner Ascent := do
  let next ← getParent parent
  match next with
  | .error e =>
    return .left (.error (.wrapped ("unable to get parent from image " ++ imageID.quote) e))
  | .ok nextParent =>
    let isParent ← imageIsParent parent
    match isParent with
    | .error e =>
      return .left
        (.error (.wrapped ("unable to get check if image " ++ imageID.quote ++ " is a parent") e))
    | .ok isParent =>
      if 0 < parent.names.length ∨ isParent then return .left (.ok imageID)
      else
        -- a failing removal of a parent is only logged
        let _removed : Except String Unit ← Prog.request (Req.deleteImage parent.id parent)
        return .goesOn nextParent

/-- The loop of `removeImage` over the parents. It has no bound in the source;
`none` says that it has not ended within the given number of rounds. -/
def ascend (imageID : String) : ℕ → Option Image → Pruner (Option (Except GoError String))
  | _, none => return some (.ok imageID)
  | 0, some _ => return none
  | rounds + 1, some parent => do
    let round ← ascendRound imageID parent
    match round with
    | .left result => return some result
    | .goesOn nextParent => ascend imageID rounds nextParent

/-- `removeImage` up to its loop: the image is removed, and the loop begins with its parent.
The caller may have changed the names of the record it has `fetched`, which the removal is
marked with. -/
def removeChild (fetched image : Image) : Pruner (Except GoError (Option Image)) := do
  let found ← getParent image
  match found with
  | .error e => return .error e
  | .ok parent =>
    let removed : Except String Unit ← Prog.request (Req.deleteImage image.id fetched)
    match removed with
    | .error text =>
      return .error (.wrapped ("could not remove image " ++ image.id.quote) (.text text))
    | .ok _ => return .ok parent

/-- `removeImage` -/
def removeImage (rounds : ℕ) (fetched image : Image) :
    Pruner (Option (Except GoError String)) := do
  let removed ← removeChild fetched image
  match removed with
  | .error e => return some (.error e)
  | .ok parent => ascend image.id rounds parent

/-- `properImageRef`. Its errors are lost: the variable it wraps is another one
than the one that was assigned. -/
def properImageRef (id : String) : Pruner (Option StoreRef) := do
  let parsed : Except String StoreRef ← Prog.request (Req.parseImageName id)
  match parsed with
  | .error _ => return none
  | .ok ref =>
    let source : Except String Unit ← Prog.request (Req.newImageSource ref)
    match source with
    | .error _ => return none
    | .ok _ => return some ref

/-- `storageImageRef`; its caller only logs the error. -/
def storageImageRef (id : String) : Pruner (Option StoreRef) := do
  let found : Except String StoreRef ← Prog.request (Req.findImage id)
  match found with
  | .error _ => return none
  | .ok ref => return some ref

/-- The full ID of an image that could be found, else the given one. -/
def fullID (id : String) : Except String Image → String
  | .error _ => id
  | .ok image => image.id

/-- `storageImageID`, whose errors are lost as those of `properImageRef`. -/
def storageImageID (id : String) : Pruner (Option StoreRef) := do
  let stored : Except String Image ← Prog.request (Req.image id)
  let parsed : Except String StoreRef ← Prog.request (Req.parseStoreReference (fullID id stored))
  match parsed with
  | .error _ => return none
  | .ok ref =>
    let source : Except String Unit ← Prog.request (Req.newImageSource ref)
    match source with
    | .error _ => return none
    | .ok _ => return some ref

/-- The reference `getImage` settles for. -/
def resolveImage (id : String) : Pruner (Option StoreRef) := do
  let proper ← properImageRef id
  match proper with
  | some ref => return some ref
  | none =>
    let stored ← storageImageRef id
    match stored with
    | some ref => return some ref
    | none => storageImageID id

/-- `getImage`; no image and no error if the ID does not resolve. -/
def getImage (id : String) : Pruner (Except GoError (Option Image)) := do
  let resolved ← resolveImage id
  match resolved with
  | none => return .ok none
  | some ref =>
    let image : Except String Image ← Prog.request (Req.getStoreImage ref)
    match image with
    | .error text =>
      return .error
        (.wrapped ("error reading image using reference " ++ ref.imageName.quote) (.text text))
    | .ok image => return .ok (some image)

/-- `runningContainers` -/
def runningContainers (image : Image) : Pruner (Except GoError (List String)) := do
  let listed : Except String (List Container) ← Prog.request Req.containers
  match listed with
  | .error text => return .error (.text text)
  | .ok containers =>
    return .ok ((containers.filter fun ctr => ctr.imageID = image.id).map Container.id)

/-- `removeContainers` -/
def removeContainers : List String → Pruner (Option GoError)
  | [] => return none
  | ctrID :: rest => do
    let removed : Except String Unit ← Prog.request (Req.deleteContainer ctrID)
    match removed with
    | .error text =>
      return some (.wrapped ("could not remove container " ++ ctrID.quote) (.text text))
    | .ok _ => removeContainers rest

/-- `matchesReference`; `none` is the panic of reading the tag of a name without one. -/
def matchesReference (name argName : String) : Option Bool :=
  let splitName := name.toList.splitOn ':'
  if argName = "" then some true
  else if ':' ∈ argName.toList then
    let splitArg := argName.toList.splitOn ':'
    if (splitArg.headD []).isSuffixOf (splitName.headD []) then
      splitName[1]?.map fun tag => tag == splitArg.getD 1 []
    else some false
  else some (argName.toList.isSuffixOf (splitName.headD []))

/-- `untagImage`; `none` is a panic. -/
def untagImage (imgArg : String) (image : Image) : Pruner (Option (Except GoError String)) :=
  match image.names.mapM fun name => matchesReference name imgArg with
  | none => return none
  | some matched => do
    let kept := (image.names.zip matched).filterMap fun name => if name.2 then none else some name.1
    let removed := (image.names.zip matched).filterMap
      fun name => if name.2 then some name.1 else none
    let removedName := removed.getLastD ""
    if removedName = "" then return some (.ok "")
    else
      let stored : Except String Unit ← Prog.request (Req.setNames image.id kept)
      match stored with
      | .error text =>
        return some (.error (.wrapped
          ("error removing name " ++ removedName.quote ++ " from image " ++ image.id.quote)
          (.text text)))
      | .ok _ => return some (.ok removedName)

/-- The flags of `deleteImages`. -/
structure DeleteOptions where
  /-- `removeAll` -/
  removeAll : Bool
  /-- `force` -/
  force : Bool
  /-- `prune` -/
  prune : Bool
  deriving DecidableEq, Repr

/-- The end of the loop body of `deleteImages`: the image is removed unless it is
named or a parent. The result is `lastError`, or `none` if there is none to report
because the code has not returned. -/
def deleteUnreferenced (o : DeleteOptions) (rounds : ℕ) (lastError : Option GoError)
    (fetched image : Image) : Pruner (Option (Option GoError)) := do
  let isParent ← imageIsParent image
  match isParent with
  | .error e =>
    return some (some
      (.wrapped ("error determining if the image " ++ image.id.quote ++ " is a parent") e))
  | .ok isParent =>
    if 0 < image.names.length ∧ o.removeAll = false then return some lastError
    else if isParent = true ∧ image.names.length = 0 ∧ o.removeAll = false then
      if o.prune then return some lastError
      else
        return some (some (.text ("unable to delete " ++ image.id.quote ++
          " (cannot be forced) - image has dependent child images")))
    else
      let removed ← removeImage rounds fetched image
      match removed with
      | none => return none
      | some (.error e) =>
        return some (some (.wrapped ("error removing image " ++ image.id.quote) e))
      | some (.ok _) => return some lastError

/-- The middle of the loop body: an image given by ID loses its names in the
fetched record only, an image given by name is untagged and fetched again. -/
def deleteTagged (o : DeleteOptions) (rounds : ℕ) (lastError : Option GoError) (id : String)
    (image : Image) : Pruner (Option (Option GoError)) := do
  if id.toList.isPrefixOf image.id.toList then
    if 1 < image.names.length ∧ o.force = false then
      return some (some (.text ("unable to delete " ++ image.id ++
        " (must force) - image is referred to in multiple tags")))
    else deleteUnreferenced o rounds lastError image { image with names := [] }
  else
    let untagged ← untagImage id image
    match untagged with
    | none => return none
    | some (.error e) =>
      return some (some (.wrapped
        ("error removing tag " ++ id.quote ++ " from image " ++ image.id.quote) e))
    | some (.ok _) =>
      let again ← getImage image.id
      match again with
      | .error e =>
        deleteUnreferenced o rounds
          (some (.wrapped ("error getting image after untag " ++ image.id.quote) e)) image image
      -- wrapping a missing error yields none: an earlier error is forgotten
      | .ok none => deleteUnreferenced o rounds none image image
      | .ok (some image1) => deleteUnreferenced o rounds lastError image1 image1

/-- The error for the last of the containers that use an image. -/
def usedByContainer (id : String) (lastError : Option GoError) (ctrIDs : List String) :
    Option GoError :=
  ctrIDs.foldl (fun _ ctrID => some (.wrapped
    ("Could not remove image " ++ id.quote ++ " (must force) - container " ++ ctrID.quote ++
      " is using its reference image") (.text "image is in use by a container"))) lastError

/-- The loop body from the fetched image on. -/
def deleteFetched (o : DeleteOptions) (rounds : ℕ) (lastError : Option GoError) (id : String)
    (image : Image) : Pruner (Option (Option GoError)) := do
  if image.readOnly then
    return some (some
      (.wrapped ("can not remove readonly image " ++ id.quote) (.text "invalid argument")))
  else
    let running ← runningContainers image
    match running with
    | .error e =>
      return some (some
        (.wrapped ("error getting running containers for image " ++ id.quote) e))
    | .ok ctrIDs =>
      if 0 < ctrIDs.length ∧ image.names.length ≤ 1 then
        if o.force then
          let failed ← removeContainers ctrIDs
          match failed with
          | some e =>
            return some (some (.wrapped ("error removing containers [" ++
              " ".intercalate ctrIDs ++ "] for image " ++ id.quote) e))
          | none => deleteTagged o rounds lastError id image
        else return some (usedByContainer id lastError ctrIDs)
      else deleteTagged o rounds lastError id image

/-- The loop body of `deleteImages`. -/
def deleteImage (o : DeleteOptions) (rounds : ℕ) (lastError : Option GoError) (id : String) :
    Pruner (Option (Option GoError)) := do
  let fetched ← getImage id
  match fetched with
  | .error e => return some (some (.wrapped ("could not get image " ++ id.quote) e))
  | .ok none =>
    return some (some
      (.wrapped ("could not get image " ++ id.quote) (.text "identifier is not an image")))
  | .ok (some image) => deleteFetched o rounds lastError id image

/-- `deleteImages` -/
def deleteImages (o : DeleteOptions) (rounds : ℕ) :
    Option GoError → List String → Pruner (Option (Option GoError))
  | lastError, [] => return some lastError
  | lastError, id :: rest => do
    let deleted ← deleteImage o rounds lastError id
    match deleted with
    | none => return none
    | some lastError => deleteImages o rounds lastError rest

/-- The images without a name. -/
def dangling (images : List Image) : List String :=
  (images.filter fun image => image.names.length = 0).map Image.id

/-- `findDanglingImages` -/
def findDanglingImages : Pruner (Except GoError (List String)) := do
  let listed : Except String (List Image) ← Prog.request Req.images
  match listed with
  | .error text => return .error (.wrapped "error reading images" (.text text))
  | .ok images => return .ok (dangling images)

/-- `Prune`, with a bound on the rounds of each ascent through the parents. -/
def prune (rounds : ℕ) : Pruner (Option (Option GoError)) := do
  let found ← findDanglingImages
  match found with
  | .error e => return some (some e)
  | .ok imagesToDelete => deleteImages ⟨false, false, true⟩ rounds none imagesToDelete

/-- The image store of a node. -/
structure ImageStore where
  /-- The images in the order in which they are listed. -/
  images : List Image
  /-- An ID belongs to one image. -/
  distinct : (images.map Image.id).Nodup
  /-- The containers. -/
  containers : List Container
  /-- The layers by ID. -/
  layers : String → Option Layer
  /-- The configurations that can be read, by image ID. -/
  configs : String → Option ImageConfig

/-- The image with an ID. -/
def ImageStore.find (s : ImageStore) (id : String) : Option Image :=
  s.images.find? fun image => image.id = id

/-- The store after an image has been removed. -/
def ImageStore.remove (s : ImageStore) (id : String) : ImageStore :=
  { s with
    images := s.images.filter fun image => image.id ≠ id
    distinct := s.distinct.sublist (List.Sublist.map _ List.filter_sublist) }

/-- The store after the names of all images have been changed. -/
def ImageStore.rename (s : ImageStore) (names : Image → List String) : ImageStore :=
  { s with
    images := s.images.map fun image => { image with names := names image }
    distinct := by
      rw [List.map_map]
      exact s.distinct }

/-- A name belongs to one image: giving it to an image takes it from the others. -/
def ImageStore.setNames (s : ImageStore) (id : String) (names : List String) : ImageStore :=
  s.rename fun image => if image.id = id then names else image.names.filter (· ∉ names)

/-- The reference that resolves to an image ID. -/
def storeRef (id : String) : StoreRef := ⟨id, "containers-storage:@" ++ id⟩

/-- A looked up entry or the failure to find it. -/
def foundOr {α : Type} (text : String) : Option α → Except String α
  | some value => .ok value
  | none => .error text

/-- Answers of the libraries. Images are looked up by full ID, which is not the
name of any image and has no transport in front of it. -/
def ImageStore.answer : (r : Req) → ImageStore → Resp r × ImageStore
  | .images, s => (.ok s.images, s)
  | .image id, s => (foundOr "image not known" (s.find id), s)
  | .layer id, s => (foundOr "layer not known" (s.layers id), s)
  | .containers, s => (.ok s.containers, s)
  | .setNames id names, s =>
    match s.find id with
    | none => (.error "image not known", s)
    | some _ => (.ok (), s.setNames id names)
  | .deleteContainer id, s =>
    (.ok (), { s with containers := s.containers.filter fun ctr => ctr.id ≠ id })
  | .deleteImage id _, s =>
    match s.find id with
    | none => (.error "image not known", s)
    | some _ =>
      if s.containers.any fun ctr => ctr.imageID = id then
        (.error "image is in use by a container", s)
      else (.ok (), s.remove id)
  | .parseImageName name, s =>
    (.error ("Invalid image name " ++ name.quote ++
      ", expected colon-separated transport:reference"), s)
  | .findImage name, s =>
    (foundOr "image not known" ((s.find name).map fun image => storeRef image.id), s)
  | .parseStoreReference name, s => (.ok (storeRef name), s)
  | .getStoreImage ref, s => (foundOr "identifier is not an image" (s.find ref.imageID), s)
  | .newImageSource ref, s =>
    (foundOr "identifier is not an image" ((s.find ref.imageID).map fun _ => ()), s)
  | .newImage ref, s =>
    (foundOr "identifier is not an image"
      ((s.find ref.imageID).bind fun _ => (s.configs ref.imageID).map fun _ => ()), s)
  | .ociConfig ref, s => (foundOr "no configuration" (s.configs ref.imageID), s)

/-- A call of the libraries; a chosen failure has no effect. -/
def ImageStore.serve (fault : Option String) (r : Req) (s : ImageStore) : Resp r × ImageStore :=
  match fault with
  | some text => (.error text, s)
  | none => s.answer r

/-- Calls that do not change the store and do not look up an image record. -/
def Inspects : Req → Prop
  | .setNames _ _ => False
  | .deleteContainer _ => False
  | .deleteImage _ _ => False
  | .getStoreImage _ => False
  | _ => True

/-- Reading a configuration changes nothing. -/
theorem issues_getImageConfig (imageID : String) : (getImageConfig imageID).Issues Inspects := by
  refine .request_bind trivial fun parsed => ?_
  split
  · exact trivial
  · refine .request_bind trivial fun opened => ?_
    split
    · refine .request_bind trivial fun stored => ?_
      split
      · exact trivial
      · split <;> exact trivial
    · refine .request_bind trivial fun config => ?_
      split <;> exact trivial

/-- Reading the top layer of an image changes nothing. -/
theorem issues_topLayer (image : Image) (shown : String) :
    (topLayer image shown).Issues Inspects := by
  unfold topLayer
  split
  · exact trivial
  · refine .request_bind trivial fun layer => ?_
    split <;> exact trivial

/-- The search for a parent among the images changes nothing. -/
theorem issues_findParent (child : Image) (childTopLayer : Option Layer)
    (childConfig : ImageConfig) (images : List Image) :
    (findParent child childTopLayer childConfig images).Issues Inspects := by
  induction images with
  | nil => exact trivial
  | cons parent rest ih =>
    unfold findParent
    split
    · exact ih
    · split
      · exact ih
      · refine (issues_getImageConfig _).bind fun config => ?_
        split
        · exact trivial
        · exact ih
        · split
          · exact trivial
          · exact ih

/-- `getParent` changes nothing. -/
theorem issues_getParent (child : Image) : (getParent child).Issues Inspects := by
  refine .request_bind trivial fun listed => ?_
  split
  · exact trivial
  · refine (issues_topLayer _ _).bind fun top => ?_
    split
    · exact trivial
    · refine (issues_getImageConfig _).bind fun config => ?_
      split
      · exact trivial
      · exact trivial
      · exact issues_findParent _ _ _ _

/-- The search for children among the images changes nothing. -/
theorem issues_findChildren (parent : Image) (parentConfig : ImageConfig) (max : ℕ)
    (children : List String) (images : List Image) :
    (findChildren parent parentConfig max children images).Issues Inspects := by
  induction images generalizing children with
  | nil => exact trivial
  | cons child rest ih =>
    unfold findChildren
    split
    · exact ih _
    · refine (issues_topLayer _ _).bind fun top => ?_
      split
      · exact trivial
      · split
        · exact ih _
        · refine (issues_getImageConfig _).bind fun config => ?_
          split
          · exact trivial
          · exact ih _
          · split
            · split
              · exact trivial
              · exact ih _
            · exact ih _

/-- `imageIsParent` changes nothing. -/
theorem issues_imageIsParent (image : Image) : (imageIsParent image).Issues Inspects := by
  have hchildren : (getChildren image 1).Issues Inspects := by
    refine .request_bind trivial fun listed => ?_
    split
    · exact trivial
    · refine (issues_getImageConfig _).bind fun config => ?_
      split
      · exact trivial
      · exact trivial
      · exact issues_findChildren _ _ _ _ _
  refine hchildren.bind fun children => ?_
  split <;> exact trivial

/-- Listing the containers of an image changes nothing. -/
theorem issues_runningContainers (image : Image) :
    (runningContainers image).Issues Inspects := by
  refine .request_bind trivial fun listed => ?_
  split <;> exact trivial

section Answers

variable {s : ImageStore} {fault : Option String} {id : String}

/-- A lookup succeeds with the entry only. -/
theorem ok_of_foundOr {α : Type} {text : String} {entry : Option α} {value : α}
    (h : foundOr text entry = .ok value) : entry = some value := by
  cases entry with
  | none => cases h
  | some stored =>
    cases h
    rfl

/-- What is found is listed under its ID. -/
theorem mem_of_find {image : Image} (h : s.find id = some image) :
    image ∈ s.images ∧ image.id = id := by
  have hid := List.find?_some h
  exact ⟨List.mem_of_find?_eq_some h, of_decide_eq_true hid⟩

/-- Two records with one ID are the same record. -/
theorem ImageStore.eq_of_id {a b : Image} (ha : a ∈ s.images) (hb : b ∈ s.images)
    (hid : a.id = b.id) : a = b :=
  List.inj_on_of_nodup_map s.distinct ha hb hid

/-- Whatever is chosen to fail, an answer that is no failure is the store's. -/
theorem ok_of_serve {r : Req} {value : Outcome r} (h : (s.serve fault r).1 = .ok value) :
    (s.answer r).1 = .ok value := by
  cases fault with
  | some text => cases h
  | none => exact h

/-- A call that inspects the store leaves it as it is, whether or not it fails. -/
theorem store_of_inspects {r : Req} (hr : Inspects r) : (s.serve fault r).2 = s := by
  cases fault with
  | some text => rfl
  | none =>
    cases r with
    | setNames id names => cases hr
    | deleteContainer id => cases hr
    | deleteImage id fetched => cases hr
    | getStoreImage ref => cases hr
    | _ => rfl

/-- An image ID is not parsed as an image name. -/
theorem parseImageName_fails {ref : StoreRef} :
    (s.serve fault (.parseImageName id)).1 ≠ .ok ref := by
  intro h
  cases ok_of_serve h

/-- `util.FindImage` refers to the image it was asked for. -/
theorem imageID_of_findImage {ref : StoreRef} (h : (s.serve fault (.findImage id)).1 = .ok ref) :
    ref.imageID = id := by
  obtain ⟨image, himage, rfl⟩ := Option.map_eq_some_iff.mp (ok_of_foundOr (ok_of_serve h))
  exact (mem_of_find himage).2

/-- The full ID of an image is the ID it was looked up with, found or not. -/
theorem fullID_of_image : fullID id (s.serve fault (.image id)).1 = id := by
  cases himage : (s.serve fault (.image id)).1 with
  | error text => rfl
  | ok image => exact (mem_of_find (ok_of_foundOr (ok_of_serve himage))).2

/-- A store reference refers to the image it was parsed for. -/
theorem imageID_of_parseStoreReference {ref : StoreRef}
    (h : (s.serve fault (.parseStoreReference id)).1 = .ok ref) : ref.imageID = id := by
  cases ok_of_serve h
  rfl

/-- `GetStoreImage` returns the image that is stored under the reference. -/
theorem find_of_getStoreImage {ref : StoreRef} {image : Image}
    (h : (s.serve fault (.getStoreImage ref)).1 = .ok image) :
    s.find ref.imageID = some image :=
  ok_of_foundOr (ok_of_serve h)

end Answers

end K8StorageX.ImagePruning
