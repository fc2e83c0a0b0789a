import TypedEntities.Template.Enumerations

/-!
# Template of an entity list

The class through which the entities of a type are read and changed. It has a part for every method
that the server allows, and an enumeration of the fields that can be asked for and one of those that
can be sorted by.
-/

namespace TypedEntities.Template

open Node

/-- A class for one way to call the server. `more` is what it is told beside the client and the
domain: its declaration and its use. -/
def requestClass (name base typeArguments : String) (more : String × String) : List Node :=
  line ["    public static class " ++ name ++ " extends TypedEntityList." ++ base ++ "<",
    key "model_class", ", " ++ typeArguments ++ "> \x7b"]
  ++ lines ["        private " ++ name
    ++ "(final OctaneHttpClient octaneHttpClient, final String baseDomain" ++ more.1 ++ ") \x7b"]
  ++ line ["            super(", key "model_class",
    ".class, octaneHttpClient, baseDomain" ++ more.2 ++ ");"]
  ++ lines ["        \x7d", "    \x7d"]

/-- Nothing beside the client and the domain. -/
def nothingMore : String × String := ("", "")

/-- The id of an entity. -/
def idToo : String × String := (", final String id", ", id")

/-- Reading. -/
def getPart : List Node :=
  lines ["",
    "    public Get get() \x7b",
    "        return new Get(octaneHttpClient, baseDomain);",
    "    \x7d",
    "",
    "    public GetById at(final String id) \x7b",
    "        return new GetById(octaneHttpClient, baseDomain, id);",
    "    \x7d",
    ""]
  ++ requestClass "Get" "Get" "Get, AvailableFields, SortableFields" nothingMore
  ++ lines [""]
  ++ requestClass "GetById" "GetById" "GetById, AvailableFields" idToo

/-- Creating. -/
def createPart : List Node :=
  lines ["",
    "    public Create create() \x7b",
    "        return new Create(octaneHttpClient, baseDomain);",
    "    \x7d",
    ""]
  ++ requestClass "Create" "Create" "Create" nothingMore

/-- Changing. -/
def updatePart : List Node :=
  lines ["",
    "    public Update update() \x7b",
    "        return new Update(octaneHttpClient, baseDomain);",
    "    \x7d",
    "",
    "    public UpdateById at(final String id, final boolean forUpdate) \x7b",
    "        return new UpdateById(octaneHttpClient, baseDomain, id);",
    "    \x7d",
    ""]
  ++ requestClass "Update" "Update" "Update" nothingMore
  ++ lines [""]
  ++ requestClass "UpdateById" "UpdateById" "UpdateById" idToo

/-- Deleting. -/
def deletePart : List Node :=
  lines ["",
    "    public Delete delete() \x7b",
    "        return new Delete(octaneHttpClient, baseDomain);",
    "    \x7d",
    ""]
  ++ requestClass "Delete" "Delete" "Delete" nothingMore

/-- An enumeration of the fields that a key lists. -/
def fieldsPart (name fields : String) : List Node :=
  lines ["", "    public enum " ++ name ++ " implements TypedEntityList." ++ name ++ " \x7b"]
  ++ each fields
    (line ["        ", key "identifier", "(\"", quoted (.key "name"), "\")", separator ","])
  ++ lines ["        ;",
    "",
    "        private final String field;",
    "",
    "        " ++ name ++ "(final String field) \x7b",
    "            this.field = field;",
    "        \x7d",
    "",
    "        @Override",
    "        public String getFieldName() \x7b",
    "            return field;",
    "        \x7d",
    "    \x7d"]

/-- The list class of an entity type. -/
def entityList : List Node :=
  line ["package ", key "package", ".entities;"]
  ++ lines ["",
    "import com.hpe.adm.nga.sdk.entities.TypedEntityList;",
    "import com.hpe.adm.nga.sdk.network.OctaneHttpClient;"]
  ++ line ["import ", key "package", ".model.", key "model_class", ";"]
  ++ lines ["", "/**"]
  ++ line [" * Collection accessor of the ", key "entity_name", " entity type."]
  ++ generatedNotice
  ++ line ["public class ", key "class_name", " extends TypedEntityList<", key "model_class",
    "> \x7b"]
  ++ lines [""]
  ++ line ["    public static final String URL = \"", quoted (.key "url"), "\";"]
  ++ lines ["",
    "    private final OctaneHttpClient octaneHttpClient;",
    "    private final String baseDomain;",
    ""]
  ++ line ["    public ", key "class_name",
    "(final OctaneHttpClient octaneHttpClient, final String baseDomain) \x7b"]
  ++ lines ["        this.octaneHttpClient = octaneHttpClient;",
    "        this.baseDomain = baseDomain + URL;",
    "    \x7d"]
  ++ onlyIf "can_get" getPart
  ++ onlyIf "can_create" createPart
  ++ onlyIf "can_update" updatePart
  ++ onlyIf "can_delete" deletePart
  ++ fieldsPart "AvailableFields" "available_fields"
  ++ fieldsPart "SortableFields" "sortable_fields"
  ++ lines ["\x7d"]

end TypedEntities.Template
