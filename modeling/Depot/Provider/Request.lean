import Depot.Document.Operation
import Depot.KeyValue.Operation
import Depot.Link.Definition

/-!
What a provider can be asked: methods by name, and requests, which are methods with parameters.
-/

set_option autoImplicit false
set_option relaxedAutoImplicit false

namespace Depot

open Wire (Decoder Slot Record)

/-- Mutations that can run in the background. -/
inductive BackgroundWrite where
  | insert (id : String) (document : Document) (options : Options.Write)
  | upsert (id : String) (document : Document) (options : Options.Write)
  | replace (id : String) (document : Document) (options : Options.Replace)
  | remove (id : String) (options : Options.Remove)

/-- Document operations that can run in the background, by the kind of their result. -/
inductive Background where
  | read (id : String) (options : Options.Read)
  | write (w : BackgroundWrite)

namespace Background

/-- The same operation in the foreground. -/
def operation : Background → Document.Operation
  | read id o => .get id o
  | write (.insert id d o) => .insert id d o
  | write (.upsert id d o) => .upsert id d o
  | write (.replace id d o) => .replace id d o
  | write (.remove id o) => .remove id o

/-- What the handle of the work shows. -/
def label : Background → String
  | read id _ => "get." ++ id
  | write (.insert id _ _) => "insert." ++ id
  | write (.upsert id _ _) => "upsert." ++ id
  | write (.replace id _ _) => "replace." ++ id
  | write (.remove id _) => "remove." ++ id

end Background

/-- The two kinds of results that wait to be fetched. -/
inductive ResultKind where
  | reading
  | mutation
  deriving DecidableEq, Repr

namespace Provider

/-- What the host asks, or anybody who has a handle; nobody is identified for it. -/
inductive HostRequest where
  | linkPut (definition : Link.Definition)
  | linkDel (source link : String)
  | health
  | shutdown
  | ready (kind : ResultKind) (handle : String)
  | fetch (kind : ResultKind) (handle : String)

/-- What callers ask of the collection that they are linked to. -/
inductive CallerRequest where
  | document (op : Document.Operation)
  | background (work : Background)
  | keyValue (op : KeyValue.Operation)

/-! ## Parameters -/

variable {α : Type}

/-- A document's id, and options with a default. -/
def idParams (options : Decoder α) (default : α) : Decoder (String × α) :=
  (((Record.ofSlot (.required "id" Wire.text)).map Prod.mk).and
    (.defaulted "options" options default)).decode

/-- A document's id, the document, and options with a default. -/
def documentParams (options : Decoder α) (default : α) : Decoder (String × Document × α) :=
  ((((Record.ofSlot (.required "id" Wire.text)).map fun id d o ↦ (id, d, o)).and
    (.required "document" Document.ofJson)).and
    (.defaulted "options" options default)).decode

def handleParams : Decoder String := (Record.ofSlot (.required "handle" Wire.text)).decode

def linkDelParams : Decoder (String × String) :=
  (((Record.ofSlot (.required "source_id" Wire.text)).map Prod.mk).and
    (.required "link_name" Wire.text)).decode

def keyRecord : Record (String × String) :=
  ((Record.ofSlot (.required "bucket" Wire.text)).map Prod.mk).and (.required "key" Wire.text)

def setRecord : Record (String × String × Bytes) :=
  (keyRecord.map fun p value ↦ (p.1, p.2, value)).and (.required "value" Wire.bytes)

def listRecord : Record (String × Option UInt64) :=
  ((Record.ofSlot (.required "bucket" Wire.text)).map Prod.mk).and
    (.defaulted "cursor" (Wire.option Wire.uint64) none)

def incrementRecord : Record (String × String × UInt64) :=
  (keyRecord.map fun p delta ↦ (p.1, p.2, delta)).and (.required "delta" Wire.uint64)

/-- A document operation out of its parameters, for operations that take an id and options. -/
def byId (options : Decoder α) (default : α) (make : String → α → Document.Operation) :
    Decoder CallerRequest :=
  fun j ↦ (idParams options default j).map fun p ↦ .document (make p.1 p.2)

/-- The same for operations that also take a document. -/
def byDocument (options : Decoder α) (default : α)
    (make : String → Document → α → Document.Operation) : Decoder CallerRequest :=
  fun j ↦ (documentParams options default j).map fun p ↦ .document (make p.1 p.2.1 p.2.2)

/-- The same for work in the background. -/
def byDocumentLater (options : Decoder α) (default : α)
    (make : String → Document → α → BackgroundWrite) : Decoder CallerRequest :=
  fun j ↦ (documentParams options default j).map fun p ↦
    .background (.write (make p.1 p.2.1 p.2.2))

/-! ## Methods -/

/-- A method: whom it serves, and how its parameters are read. -/
inductive Method where
  | host (params : Decoder HostRequest)
  | caller (params : Decoder CallerRequest)

def hostMethods : List (String × Decoder HostRequest) :=
  [("provider.link_put", fun j ↦ (Link.Definition.ofJson j).map .linkPut),
    ("provider.link_del", fun j ↦ (linkDelParams j).map fun p ↦ .linkDel p.1 p.2),
    ("provider.health", fun _ ↦ .ok .health),
    ("provider.shutdown", fun _ ↦ .ok .shutdown),
    ("document.get_result.ready", fun j ↦ (handleParams j).map (.ready .reading)),
    ("document.get_result.get", fun j ↦ (handleParams j).map (.fetch .reading)),
    ("document.mutation_result.ready", fun j ↦ (handleParams j).map (.ready .mutation)),
    ("document.mutation_result.get", fun j ↦ (handleParams j).map (.fetch .mutation))]

def documentMethods : List (String × Decoder CallerRequest) :=
  [("document.get", byId Options.Read.ofJson {} .get),
    ("document.insert", byDocument Options.Write.ofJson {} .insert),
    ("document.upsert", byDocument Options.Write.ofJson {} .upsert),
    ("document.replace", byDocument Options.Replace.ofJson {} .replace),
    ("document.remove", byId Options.Remove.ofJson {} .remove),
    ("document.touch", byId Options.Touch.ofJson {} .touch),
    ("document.unlock", byId Options.Unlock.ofJson {} .unlock),
    ("document.get_and_lock", byId Options.Lock.ofJson {} .getAndLock),
    ("document.get_and_touch", byId Options.Touch.ofJson {} .getAndTouch),
    ("document.get_all_replicas", byId Options.Replica.ofJson {} .getAllReplicas),
    ("document.get_any_replica", byId Options.Replica.ofJson {} .getAnyReplica)]

def backgroundMethods : List (String × Decoder CallerRequest) :=
  [("document.get_async", fun j ↦ (idParams Options.Read.ofJson {} j).map fun p ↦
      .background (.read p.1 p.2)),
    ("document.insert_async", byDocumentLater Options.Write.ofJson {} .insert),
    ("document.upsert_async", byDocumentLater Options.Write.ofJson {} .upsert),
    ("document.replace_async", byDocumentLater Options.Replace.ofJson {} .replace),
    ("document.remove_async", fun j ↦ (idParams Options.Remove.ofJson {} j).map fun p ↦
      .background (.write (.remove p.1 p.2)))]

def keyValueMethods : List (String × Decoder CallerRequest) :=
  [("keyvalue.store.get", fun j ↦ (keyRecord.decode j).map fun p ↦ .keyValue (.get p.1 p.2)),
    ("keyvalue.store.set", fun j ↦ (setRecord.decode j).map fun p ↦
      .keyValue (.set p.1 p.2.1 p.2.2)),
    ("keyvalue.store.delete", fun j ↦ (keyRecord.decode j).map fun p ↦
      .keyValue (.delete p.1 p.2)),
    ("keyvalue.store.exists", fun j ↦ (keyRecord.decode j).map fun p ↦
      .keyValue (.contains p.1 p.2)),
    ("keyvalue.store.list_keys", fun j ↦ (listRecord.decode j).map fun p ↦
      .keyValue (.listKeys p.1 p.2)),
    ("keyvalue.atomics.increment", fun j ↦ (incrementRecord.decode j).map fun p ↦
      .keyValue (.increment p.1 p.2.1 p.2.2))]

/-- The methods that need an identity. -/
def callerMethods : List (String × Decoder CallerRequest) :=
  documentMethods ++ backgroundMethods ++ keyValueMethods

def methods : List (String × Method) :=
  hostMethods.map (fun m ↦ (m.1, .host m.2)) ++ callerMethods.map (fun m ↦ (m.1, .caller m.2))

def Method.ofName? (name : String) : Option Method :=
  (methods.find? fun m ↦ m.1 = name).map Prod.snd

end Provider
end Depot
