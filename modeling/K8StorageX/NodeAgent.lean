import K8StorageX.OptimisticStore
import K8StorageX.CacheModel
import K8StorageX.GoErrors

/-!
# What a node asks of the cluster and of its container storage

The `layerfs` command runs on a node. It updates the `Cache` resource through
the Kubernetes API and mounts, unmounts, commits and pushes containers through
the container libraries. Both kinds of requests form one signature, so that
`synchronizedStore` can be written as one program. The container libraries are
not part of the repository; every outcome of their operations is possible.
-/

namespace K8StorageX.NodeAgent

open ApiProgram CacheModel GoErrors

/-- Options of `Mount` and `Unmount`. Cancellation of the context is a request. -/
structure MountOptions where
  /-- Image the volume starts from and is pushed to; empty for a local image. -/
  image : String
  /-- Name of the container; derived from the mount path when empty. -/
  containerName : String
  /-- External mount path, if any. -/
  extMountDir : String
  /-- Whether `Unmount` commits the container. -/
  commit : Bool
  /-- Name of the cache. -/
  cacheName : String
  /-- Namespace of the cache. -/
  cacheNamespace : String
  deriving DecidableEq, Repr

/-- `buildah.PullPolicy`, as far as the store uses it. -/
inductive PullPolicy where
  /-- `PullNever` -/
  | never
  /-- `PullAlways` -/
  | always
  deriving DecidableEq, Repr

/-- A parsed image reference, known by its docker reference. -/
structure ImageRef where
  /-- `DockerReference().String()` -/
  dockerReference : String
  deriving DecidableEq, Repr

/-- A buildah container handle. -/
structure Builder where
  /-- `ContainerID` -/
  containerID : String
  /-- `Args["MOUNT_DIR"]`, empty when missing; `none` for nil `Args`. -/
  mountDir : Option String
  deriving DecidableEq, Repr

/-- The container record of the storage library. -/
structure Container where
  /-- `LayerID` -/
  layerID : String
  /-- `ImageID`, empty for a container from scratch. -/
  imageID : String
  deriving DecidableEq, Repr

/-- A failing `os.Remove`. -/
inductive RemoveError where
  /-- `os.IsNotExist` -/
  | notExist
  /-- Any other failure. -/
  | other (text : String)
  deriving DecidableEq, Repr

/-- Operations on the node: files, mounts, buildah and image libraries. -/
inductive LayerfsOp where
  /-- `imgstorage.Transport.ParseStoreReference` -/
  | parseStoreReference (name : String)
  /-- `alltransports.ParseImageName` -/
  | parseImageName (name : String)
  /-- `os.Mkdir` -/
  | mkdir (dir : String)
  /-- `os.Remove` -/
  | remove (dir : String)
  /-- `unix.Mount` as a bind mount -/
  | mount (srcDir destDir : String)
  /-- `unix.Unmount` -/
  | unmount (destDir : String)
  /-- `buildah.NewBuilder` -/
  | newBuilder (container fromImage : String) (pullPolicy : PullPolicy)
  /-- `buildah.OpenBuilder` -/
  | openBuilder (name : String)
  /-- `buildah.OpenBuilderByPath` -/
  | openBuilderByPath (path : String)
  /-- `Builder.Mount` -/
  | builderMount (containerID : String)
  /-- `Builder.Save` with `Args["MOUNT_DIR"]` set -/
  | builderSave (containerID mountDir : String)
  /-- `Builder.Unmount` -/
  | builderUnmount (containerID : String)
  /-- `Builder.Delete` -/
  | builderDelete (containerID : String)
  /-- `Context.Err() != nil` -/
  | contextErr
  /-- `storage.Store.Container` -/
  | container (containerID : String)
  /-- `storage.Store.Changes`, as the number of changed paths -/
  | changes (layerID : String)
  /-- `Builder.Commit`, yielding the image ID and the canonical reference -/
  | builderCommit (containerID : String) (imgRef : ImageRef)
  /-- `storage.Transport.NewStoreReference` -/
  | newStoreReference (ref imageID : String)
  /-- `copy.Image` under `retry.RetryIfNecessary` -/
  | copyImage (srcRef destRef : ImageRef)
  deriving DecidableEq, Repr

/-- Outcomes of the operations; errors are texts. -/
abbrev LayerfsOp.Outcome : LayerfsOp → Type
  | .parseStoreReference _ => Except String ImageRef
  | .parseImageName _ => Except String ImageRef
  | .mkdir _ => Except String Unit
  | .remove _ => Except RemoveError Unit
  | .mount _ _ => Except String Unit
  | .unmount _ => Except String Unit
  | .newBuilder _ _ _ => Except String Builder
  | .openBuilder _ => Except String Builder
  | .openBuilderByPath _ => Except String Builder
  | .builderMount _ => Except String String
  | .builderSave _ _ => Except String Unit
  | .builderUnmount _ => Except String Unit
  | .builderDelete _ => Except String Unit
  | .contextErr => Bool
  | .container _ => Except String Container
  | .changes _ => Except String ℕ
  | .builderCommit _ _ => Except String (String × String)
  | .newStoreReference _ _ => Except String ImageRef
  | .copyImage _ _ => Except String Unit

/-- Requests of a node. -/
inductive Req where
  /-- `client.Get`, `client.Create` and `client.Status().Update` of the cache,
  and `time.Now()` -/
  | cache (r : OptimisticStore.Req Cache)
  /-- The wrapped store's `Unmount` is entered; only marks the call. -/
  | enterUnmount (opts : MountOptions)
  /-- An operation on the node. -/
  | layerfs (op : LayerfsOp)
  deriving DecidableEq

/-- Responses to the requests of a node. -/
abbrev Resp : Req → Type
  | .cache r => OptimisticStore.Resp Cache r
  | .enterUnmount _ => Unit
  | .layerfs op => op.Outcome

/-- Programs that run on a node. -/
abbrev Agent : Type → Type := Prog Req Resp

/-- Run a client of the cache resource on a node. -/
def onCache {α : Type} :
    Prog (OptimisticStore.Req Cache) (OptimisticStore.Resp Cache) α → Agent α
  | .ret value => .ret value
  | .call r next => .call (.cache r) fun response => onCache (next response)

theorem onCache_bind {α β : Type}
    (p : Prog (OptimisticStore.Req Cache) (OptimisticStore.Resp Cache) α)
    (f : α → Prog (OptimisticStore.Req Cache) (OptimisticStore.Resp Cache) β) :
    onCache (p >>= f) = onCache p >>= fun value => onCache (f value) := by
  induction p with
  | ret value => rfl
  | call r next ih =>
    simp only [Prog.call_bind, onCache]
    congr 1
    funext response
    exact ih response

end K8StorageX.NodeAgent
